import BookCatalog.Command.Grammar
import BookCatalog.Decimal.Numeral
import BookCatalog.Query.Compile

/-!
The command line. Settings that hold for every command come first, then the command and what it
works on. The three switches for a second clause require each other in a circle, so a search has all
of them or none.
-/
namespace BookCatalog

namespace Command

/-- What a search is given. -/
structure Search where
  kind : Kind
  field : String
  value : String
  operator : Option Operator
  field2 : Option String
  value2 : Option String

end Command

/-- A command with what it works on. -/
inductive Command where
  | get (kind : Kind) (id : String)
  | delete (kind : Kind) (id : String)
  | search (search : BookCatalog.Command.Search)
  | top (kind : Kind) (count : Option Nat) (svg : Option String)
  | update (kind : Kind) (id : String) (assignments : List String)
  | create (kind : Kind) (assignments : List String)
  | createMany (kind : Kind) (file : String)
  | scrape (target : String)

namespace Command

/-- A whole command line. -/
structure Arguments where
  url : Option String
  json : Bool
  command : Command

/-- The query of a search: compound if a second clause is given in full, and single otherwise. -/
def Search.query (search : Search) : Except Error Query := do
  let first : Clause := ⟨← Field.resolve search.kind search.field, search.value⟩
  match search.operator, search.field2, search.value2 with
  | some operator, some field2, some value2 =>
    let second : Clause := ⟨← Field.resolve search.kind field2, value2⟩
    Query.join first operator second
  | _, _, _ => return .single first

/-- The commands. -/
inductive Verb where
  | get
  | delete
  | search
  | top
  | update
  | create
  | createMany
  | scrape
  deriving DecidableEq

namespace Verb

/-- The name of a command on the command line. -/
def name : Verb → String
  | .get => "get"
  | .delete => "delete"
  | .search => "search"
  | .top => "top"
  | .update => "update"
  | .create => "create"
  | .createMany => "create-many"
  | .scrape => "scrape"

/-- All commands. -/
def all : List Verb := [.get, .delete, .search, .top, .update, .create, .createMany, .scrape]

/-- The command of a name. -/
def ofName? (name : String) : Option Verb := all.find? (·.name == name)

end Verb

/-- What is wrong with a value of a slot. -/
def checkValue (slot : Slot) (value : String) : Option UsageError :=
  match slot with
  | .kind => match Kind.read value with
    | .ok _ => none
    | .error _ => some .unreadableValue
  | .operator => match Operator.read value with
    | .ok _ => none
    | .error _ => some .unreadableValue
  | .count => match Decimal.readCount Decimal.countBound value with
    | .ok _ => none
    | .error _ => some .unreadableValue
  | .svg | .file => if value.isEmpty then some .missingValue else none
  | _ => none

/-- The switch that asks for help. -/
def helpSwitch : Switch := ⟨some "help", some 'h', .help⟩

/-- The name of the command that shows help. -/
def helpCommand : String := "help"

/-- What may be given in front of a command. -/
def outerGrammar : Grammar where
  switches :=
    [⟨some "url", none, .valued .url false⟩, ⟨some "json", none, .flag .json⟩, helpSwitch,
      ⟨some "version", some 'V', .version⟩]
  positions := []
  commands := Verb.all.map Verb.name ++ [helpCommand]
  check := checkValue

/-- The switches of a command. -/
def Verb.switches : Verb → List Switch
  | .search =>
    [⟨some "op", none, .valued .operator false⟩, ⟨some "field2", none, .valued .field2 false⟩,
      ⟨some "value2", none, .valued .value2 false⟩]
  | .top => [⟨some "k", some 'k', .valued .count false⟩, ⟨some "svg", none, .valued .svg false⟩]
  | .update | .create => [⟨some "set", some 'a', .valued .assignment true⟩]
  | _ => []

/-- What the bare arguments of a command are. -/
def Verb.positions : Verb → List Slot
  | .get | .delete | .update => [.kind, .id]
  | .search => [.kind, .field, .value]
  | .top | .create => [.kind]
  | .createMany => [.kind, .file]
  | .scrape => [.target]

/-- What may be given behind a command. -/
def Verb.grammar (verb : Verb) : Grammar where
  switches := verb.switches ++ [helpSwitch]
  positions := verb.positions
  commands := []
  check := checkValue

/-- Slots that may only be given together with another. -/
def requirements : List (Slot × Slot) :=
  [(.operator, .field2), (.field2, .value2), (.value2, .operator)]

namespace Given

/-- Whether a slot has a value. -/
def has (given : Given) (slot : Slot) : Bool := (given.lookup slot).isSome

/-- The value of a slot that must be given. -/
def need (given : Given) (slot : Slot) : Except UsageError String :=
  match given.lookup slot with
  | some value => .ok value
  | none => .error .missingArgument

/-- All values of a slot that must be given. -/
def needAll (given : Given) (slot : Slot) : Except UsageError (List String) :=
  match given.filterMap fun (other, value) => if other = slot then some value else none with
  | [] => .error .missingArgument
  | values => .ok values

/-- A value as what it denotes. -/
def readAs {ε α : Type} (read : String → Except ε α) (value : String) : Except UsageError α :=
  (read value).mapError fun _ => .unreadableValue

/-- The kind, which must be given. -/
def kind (given : Given) : Except UsageError Kind := do readAs Kind.read (← need given .kind)

/-- Whether every slot is given together with what it requires. -/
def isComplete (given : Given) : Bool :=
  requirements.all fun (slot, required) => !has given slot || has given required

/-- What a search is given. -/
def search (given : Given) : Except UsageError Search := do
  let kind ← kind given
  let field ← need given .field
  if isComplete given then
    let operator ← match given.lookup .operator with
      | some word => some <$> readAs Operator.read word
      | none => pure none
    return { kind, field, operator
             value := (given.lookup .value).getD ""
             field2 := given.lookup .field2
             value2 := given.lookup .value2 }
  else .error .missingArgument

/-- The command that the accepted values make up. -/
def command (given : Given) : Verb → Except UsageError Command
  | .get => return .get (← kind given) (← need given .id)
  | .delete => return .delete (← kind given) (← need given .id)
  | .search => return .search (← search given)
  | .top => do
    let kind ← kind given
    let count ← match given.lookup .count with
      | some text => some <$> readAs (Decimal.readCount Decimal.countBound) text
      | none => pure none
    return .top kind count (given.lookup .svg)
  | .update => return .update (← kind given) (← need given .id) (← needAll given .assignment)
  | .create => return .create (← kind given) (← needAll given .assignment)
  | .createMany => return .createMany (← kind given) (← need given .file)
  | .scrape => return .scrape (← need given .target)

end Given

/-- The command of a name, from the arguments behind it. -/
def readCommand (verb : Verb) (arguments : List String) : Except UsageError Command := do
  let scan ← verb.grammar.scan .start false arguments
  let progress ← verb.grammar.settle scan.progress
  Given.command progress.given verb

/-- What comes of asking for help about a command, or about none. -/
def helpAbout : List String → UsageError
  | [] => .helpWanted
  | [name] => if outerGrammar.commands.contains name then .helpWanted else .unknownCommand
  | _ => .unknownCommand

/-- Reads a command line. The URL in the environment counts where the line has none. -/
def readArguments (catalogUrl : Option String) (arguments : List String) :
    Except UsageError Arguments := do
  let scan ← outerGrammar.scan .start false arguments
  let command ← match scan.command with
    | none => pure none
    | some (name, rest) => match Verb.ofName? name with
      | some verb => some <$> readCommand verb rest
      | none => .error (helpAbout rest)
  let progress ← outerGrammar.settle scan.progress
  let url := (progress.given.lookup .url).or catalogUrl
  match command with
  | some command => return { url, json := Given.has progress.given .json, command }
  | none =>
    if progress.given.isEmpty && url.isNone then .error .nothingGiven else .error .missingCommand

end Command
end BookCatalog
