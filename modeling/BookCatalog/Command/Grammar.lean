/-!
Command lines as a sequence of arguments. A grammar lists the switches of a level, the slots that
bare arguments fill one after the other, and the names of commands that begin a deeper level.
Arguments are taken from the left. A value is accepted only when something comes after it, or at the
end, so a mistake in a switch that follows is found before a mistake in the value.
-/
namespace BookCatalog.Command

/-- Why a command line is not carried out. -/
inductive UsageError where
  | helpWanted
  | versionWanted
  /-- Neither an argument nor a command is there. -/
  | nothingGiven
  | missingCommand
  | missingArgument
  | unknownArgument
  | unknownCommand
  /-- A switch lacks its value, or a path is empty. -/
  | missingValue
  /-- A value cannot be read. -/
  | unreadableValue
  /-- Something that may be given once is given twice. -/
  | repeatedArgument
  /-- A switch that takes no value is given one. -/
  | needlessValue
  deriving DecidableEq

/-- What an argument stands for. -/
inductive Slot where
  | url
  | json
  | kind
  | id
  | field
  | value
  | operator
  | field2
  | value2
  | count
  | svg
  | assignment
  | file
  | target
  deriving DecidableEq

/-- What a switch does. -/
inductive Role where
  | help
  | version
  | flag (slot : Slot)
  /-- Takes one value; only a repeatable switch may come again. -/
  | valued (slot : Slot) (repeatable : Bool)

/-- A switch with its long name, without dashes, and its letter. -/
structure Switch where
  long : Option String
  short : Option Char
  role : Role

/-- What may be given on one level of a command line. -/
structure Grammar where
  switches : List Switch
  /-- What bare arguments fill, in their order. -/
  positions : List Slot
  /-- Names that begin a deeper level. -/
  commands : List String
  /-- What is wrong with a value of a slot. -/
  check : Slot → String → Option UsageError

/-- Accepted values with the slots they are for, in their order. -/
abbrev Given := List (Slot × String)

/-- A slot whose value is not accepted yet, or not there yet. -/
structure Pending where
  slot : Slot
  repeatable : Bool
  value : Option String

/-- How far a command line has been taken in. -/
structure Progress where
  given : Given
  pending : Option Pending
  /-- Number of slots filled by bare arguments. -/
  filled : Nat

/-- Nothing taken in. -/
def Progress.start : Progress := ⟨[], none, 0⟩

/-- Whether a switch waits for its value. -/
def Progress.awaitsValue (progress : Progress) : Bool :=
  match progress.pending with
  | some pending => pending.value.isNone
  | none => false

namespace Grammar

/-- Accepts a value for a slot. -/
def accept (grammar : Grammar) (progress : Progress) (slot : Slot) (repeatable : Bool)
    (value : String) : Except UsageError Progress :=
  if !repeatable && (progress.given.lookup slot).isSome then .error .repeatedArgument
  else match grammar.check slot value with
    | some error => .error error
    | none => .ok { progress with given := progress.given ++ [(slot, value)], pending := none }

/-- Accepts the pending value, if there is one. -/
def settle (grammar : Grammar) (progress : Progress) : Except UsageError Progress :=
  match progress.pending with
  | none => .ok progress
  | some ⟨_, _, none⟩ => .error .missingValue
  | some ⟨slot, repeatable, some value⟩ => grammar.accept progress slot repeatable value

/-- Takes in a switch, with a value if one is attached to it. -/
def take (grammar : Grammar) (progress : Progress) (role : Role) (attached : Option String) :
    Except UsageError Progress :=
  match role, attached with
  | .valued slot repeatable, some value => do
    grammar.accept (← grammar.settle progress) slot repeatable value
  | .valued slot repeatable, none => do
    return { ← grammar.settle progress with pending := some ⟨slot, repeatable, none⟩ }
  | _, some _ => .error .needlessValue
  | .help, none => do
    let _ ← grammar.settle progress
    .error .helpWanted
  | .version, none => do
    let _ ← grammar.settle progress
    .error .versionWanted
  | .flag slot, none => do grammar.accept (← grammar.settle progress) slot false "true"

/-- Takes in a long switch, whose value may be attached behind an equals sign. -/
def takeLong (grammar : Grammar) (progress : Progress) (chars : List Char) :
    Except UsageError Progress :=
  let name : String := .ofList (chars.takeWhile (· != '='))
  let attached : Option String := match chars.dropWhile (· != '=') with
    | [] => none
    | _ :: value => some (.ofList value)
  match grammar.switches.find? (·.long == some name) with
  | some switch => grammar.take progress switch.role attached
  | none => .error .unknownArgument

/-- Takes in a group of letters. A letter that takes a value has the rest of the group as its value,
without an equals sign in front; if nothing is left, its value is still to come. -/
def takeLetters (grammar : Grammar) : Progress → List Char → Except UsageError Progress
  | progress, [] => .ok progress
  | progress, letter :: rest =>
    match grammar.switches.find? (·.short == some letter) with
    | none => .error .unknownArgument
    | some switch => match switch.role with
      | .valued slot repeatable =>
        let attached : Option String := match rest with
          | [] => none
          | '=' :: value => some (.ofList value)
          | value => some (.ofList value)
        grammar.take progress (.valued slot repeatable) attached
      | role => do grammar.takeLetters (← grammar.take progress role none) rest

/-- Takes in a bare argument. -/
def takeBare (grammar : Grammar) (progress : Progress) (bareOnly : Bool) (argument : String) :
    Except UsageError Progress :=
  match grammar.positions[progress.filled]? with
  | some slot => do
    return { ← grammar.settle progress with
      pending := some ⟨slot, false, some argument⟩, filled := progress.filled + 1 }
  | none =>
    if grammar.commands.isEmpty || bareOnly && grammar.commands.contains argument then
      .error .unknownArgument
    else .error .unknownCommand

/-- Takes in one argument. After a lone `--` all arguments are bare; before it one that starts with
a dash is a switch, except for a dash alone. -/
def takeArgument (grammar : Grammar) (progress : Progress) (bareOnly : Bool) (argument : String) :
    Except UsageError Progress :=
  match bareOnly, argument.toList with
  | false, '-' :: '-' :: chars => grammar.takeLong progress chars
  | false, '-' :: letter :: letters => grammar.takeLetters progress (letter :: letters)
  | _, _ =>
    match bareOnly, progress.pending with
    | false, some ⟨slot, repeatable, none⟩ =>
      .ok { progress with pending := some ⟨slot, repeatable, some argument⟩ }
    | _, _ => grammar.takeBare progress bareOnly argument

/-- What was taken in on one level, and the command that ended it with the arguments behind it. -/
structure Scan where
  progress : Progress
  command : Option (String × List String)

/-- Takes in the arguments of one level. -/
def scan (grammar : Grammar) : Progress → Bool → List String → Except UsageError Scan
  | progress, _, [] => .ok ⟨progress, none⟩
  | progress, bareOnly, argument :: rest =>
    if !bareOnly && !progress.awaitsValue && grammar.commands.contains argument then
      .ok ⟨progress, some (argument, rest)⟩
    else if !bareOnly && argument = "--" then grammar.scan progress true rest
    else do grammar.scan (← grammar.takeArgument progress bareOnly argument) bareOnly rest

end Grammar
end BookCatalog.Command
