import BookCatalog.Json.Basic
import BookCatalog.Decimal.Style

/-!
Writing JSON. There is one writer and two spacings, compact and indented by two. An object's fields
are written in the order in which they are held. Only the quote, the backslash and the characters
below the blank are escaped; a double that is no number or infinite is written as `null`.
-/
namespace BookCatalog.Json

/-- The escaped form of one character. -/
def escapeChar (c : Char) : List Char :=
  match c with
  | '"' => ['\\', '"']
  | '\\' => ['\\', '\\']
  | '\x08' => ['\\', 'b']
  | '\x0c' => ['\\', 'f']
  | '\n' => ['\\', 'n']
  | '\r' => ['\\', 'r']
  | '\t' => ['\\', 't']
  | c =>
    if c.toNat < 0x20 then
      ['\\', 'u', '0', '0', Nat.digitChar (c.toNat / 16), Nat.digitChar (c.toNat % 16)]
    else [c]

/-- A text between quotes. -/
def quote (s : String) : String :=
  .ofList ('"' :: s.toList.flatMap escapeChar ++ ['"'])

/-- The text of a whole number. -/
def wholeText (n : Int) : String :=
  .ofList (Decimal.signed (n < 0) (Nat.toDigits 10 n.natAbs))

/-- The text of a number. -/
def numberText : Number → String
  | .whole n => wholeText n
  | .double x => match Decimal.Value.ofFloat x with
    | .finite negative mantissa exponent =>
      .ofList (Decimal.signed negative (Decimal.Style.document.magnitude mantissa exponent))
    | _ => "null"

/-- What stands between the parts of an array or object. -/
structure Spacing where
  /-- Before an item, and before the closing bracket, at a nesting depth. -/
  lineBreak : Nat → String
  /-- After the key of a field. -/
  colon : String

/-- No blanks at all. -/
def Spacing.compact : Spacing := ⟨fun _ => "", ":"⟩

/-- One item a line, indented by two for each depth. -/
def Spacing.indented : Spacing where
  lineBreak depth := .ofList ('\n' :: List.replicate (2 * depth) ' ')
  colon := ": "

mutual

/-- The text of a value at a nesting depth. -/
def write (spacing : Spacing) (depth : Nat) : Json → String
  | .null => "null"
  | .bool true => "true"
  | .bool false => "false"
  | .number n => numberText n
  | .text s => quote s
  | .array [] => "[]"
  | .array (item :: items) =>
    "[" ++ spacing.lineBreak (depth + 1) ++ write spacing (depth + 1) item ++
      writeItems spacing (depth + 1) items ++ spacing.lineBreak depth ++ "]"
  | .object [] => "\x7b\x7d"
  | .object ((key, value) :: fields) =>
    "\x7b" ++ spacing.lineBreak (depth + 1) ++ quote key ++ spacing.colon ++
      write spacing (depth + 1) value ++ writeFields spacing (depth + 1) fields ++
      spacing.lineBreak depth ++ "\x7d"

/-- The items after the first, each behind a comma. -/
def writeItems (spacing : Spacing) (depth : Nat) : List Json → String
  | [] => ""
  | item :: items =>
    "," ++ spacing.lineBreak depth ++ write spacing depth item ++ writeItems spacing depth items

/-- The fields after the first, each behind a comma. -/
def writeFields (spacing : Spacing) (depth : Nat) : List (String × Json) → String
  | [] => ""
  | (key, value) :: fields =>
    "," ++ spacing.lineBreak depth ++ quote key ++ spacing.colon ++ write spacing depth value ++
      writeFields spacing depth fields

end

/-- The text of a value without blanks. -/
def compact (value : Json) : String := write .compact 0 value

/-- The text of a value with one item a line. -/
def pretty (value : Json) : String := write .indented 0 value

end BookCatalog.Json
