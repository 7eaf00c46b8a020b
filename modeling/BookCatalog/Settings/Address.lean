import BookCatalog.Text.Basic

/-!
Socket addresses: an address of four decimal octets, or one of eight hexadecimal groups in brackets,
and a port behind a colon. Groups may be left out once by a double colon, the last two may be
written as octets, and a scope may stand before the closing bracket. The written form is the usual
one: the longest run of two or more zero groups is left out, the first of those that are equally
long.
-/
namespace BookCatalog

/-- A socket address. -/
inductive Address where
  | v4 (octets : List Nat) (port : Nat)
  | v6 (groups : List Nat) (scope : Nat) (port : Nat)
  deriving DecidableEq

namespace Address

/-- Takes a part off the front of a text. -/
abbrev Reader (α : Type) := List Char → Option (α × List Char)

/-- A given character. -/
def char (c : Char) : Reader Unit
  | first :: rest => if first = c then some ((), rest) else none
  | [] => none

/-- The values of the digits at the front of a text, and the rest. -/
def digits (radix : Nat) : List Char → List Nat × List Char
  | [] => ([], [])
  | c :: rest => match Text.digitValue? radix c with
    | some value => let (values, rest) := digits radix rest; (value :: values, rest)
    | none => ([], c :: rest)

/-- A number below a bound, of at least one digit and at most the given number of digits. -/
def number (radix bound : Nat) (most : Option Nat) (leadingZeros : Bool) :
    Reader Nat := fun chars =>
  let (values, rest) := digits radix chars
  let value := values.foldl (fun read digit => radix * read + digit) 0
  let tooLong := match most with
    | some most => most < values.length
    | none => false
  let padded := !leadingZeros && values.head? == some 0 && 1 < values.length
  if values.isEmpty || tooLong || padded || bound ≤ value then none else some (value, rest)

/-- Four octets with points between them. -/
def readOctets : Reader (List Nat) := fun chars => do
  let octet := number 10 256 (some 3) false
  let (a, chars) ← octet chars
  let ((), chars) ← char '.' chars
  let (b, chars) ← octet chars
  let ((), chars) ← char '.' chars
  let (c, chars) ← octet chars
  let ((), chars) ← char '.' chars
  let (d, chars) ← octet chars
  some ([a, b, c, d], chars)

/-- The two groups that four octets stand for. -/
def groupsOfOctets : List Nat → List Nat
  | [a, b, c, d] => [256 * a + b, 256 * c + d]
  | _ => []

/-- A colon, except in front of the first part. -/
def colonUnless (first : Bool) : Reader Unit :=
  if first then fun chars => some ((), chars) else char ':'

/-- As many groups as there are, up to a limit, and whether octets ended them. -/
def readGroups : Nat → Bool → List Char → List Nat × Bool × List Char
  | 0, _, chars => ([], false, chars)
  | limit + 1, first, chars =>
    let octets := if limit = 0 then none else do
      let ((), chars) ← colonUnless first chars
      readOctets chars
    match octets with
    | some (octets, rest) => (groupsOfOctets octets, true, rest)
    | none =>
      let group := do
        let ((), chars) ← colonUnless first chars
        number 16 65536 (some 4) true chars
      match group with
      | some (group, rest) =>
        let (groups, ended, rest) := readGroups limit false rest
        (group :: groups, ended, rest)
      | none => ([], false, chars)

/-- Eight groups, or fewer around a double colon that stands for at least one. -/
def readAddressGroups : Reader (List Nat) := fun chars =>
  let (front, ended, rest) := readGroups 8 true chars
  if front.length = 8 then some (front, rest)
  else if ended then none
  else do
    let ((), rest) ← char ':' rest
    let ((), rest) ← char ':' rest
    let (back, _, rest) := readGroups (7 - front.length) true rest
    some (front ++ List.replicate (8 - front.length - back.length) 0 ++ back, rest)

/-- A scope behind a percent sign, zero without one. -/
def readScope (chars : List Char) : Nat × List Char :=
  let scope := do
    let ((), chars) ← char '%' chars
    number 10 UInt32.size none true chars
  scope.getD (0, chars)

/-- A port behind a colon. -/
def readPort : Reader Nat := fun chars => do
  let ((), chars) ← char ':' chars
  number 10 65536 none true chars

/-- The address that a text denotes. -/
def read? (text : String) : Option Address :=
  let plain := do
    let (octets, chars) ← readOctets text.toList
    let (port, chars) ← readPort chars
    some (Address.v4 octets port, chars)
  let bracketed := do
    let ((), chars) ← char '[' text.toList
    let (groups, chars) ← readAddressGroups chars
    let (scope, chars) := readScope chars
    let ((), chars) ← char ']' chars
    let (port, chars) ← readPort chars
    some (Address.v6 groups scope port, chars)
  match Option.or plain bracketed with
  | some (address, []) => some address
  | _ => none

/-- Octets with points between them. -/
def octetsText (octets : List Nat) : String := ".".intercalate (octets.map toString)

/-- Groups with colons between them. -/
def colonText (groups : List Nat) : String :=
  ":".intercalate (groups.map fun group => .ofList (Nat.toDigits 16 group))

/-- The start and the length of the first longest run of zeros, counting from `index`. -/
def longestZeros : Nat → List Nat → Nat × Nat
  | index, [] => (index, 0)
  | index, group :: groups =>
    let here := ((group :: groups).takeWhile (· == 0)).length
    let later := longestZeros (index + 1) groups
    if later.2 ≤ here then (index, here) else later

/-- Groups as they are usually written. -/
def groupsText (groups : List Nat) : String :=
  match groups with
  | [0, 0, 0, 0, 0, 0xFFFF, high, low] =>
    "::ffff:" ++ octetsText [high / 256, high % 256, low / 256, low % 256]
  | _ =>
    let (start, length) := longestZeros 0 groups
    if 1 < length then
      colonText (groups.take start) ++ "::" ++ colonText (groups.drop (start + length))
    else colonText groups

/-- The text of an address. -/
def text : Address → String
  | .v4 octets port => octetsText octets ++ ":" ++ toString port
  | .v6 groups scope port =>
    let scope := if scope = 0 then "" else "%" ++ toString scope
    "[" ++ groupsText groups ++ scope ++ "]:" ++ toString port

end Address
end BookCatalog
