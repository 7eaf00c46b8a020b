import BookCatalog.Json.Basic
import BookCatalog.Decimal.Reader
import BookCatalog.Text.Basic

/-!
Reading JSON. A reader takes a value off the front of a text and leaves the rest. The depth budget
is what nested arrays and objects recurse on: a reader with no budget left opens no bracket. Inside
one bracket the items are read one after the other by the reader of the next smaller budget, each
taking at least one character, so the length of the text bounds their number.

Whole numbers that fit into sixty-four bits, signed or not, stay whole; all other numbers become the
nearest double, and one too large for any double is refused. An object's later field replaces an
earlier one of the same key.

A decimal is rounded here once, from its exact value. Readers are in use that round its digits first
and the power of ten after them. They come to the next double for some decimals of sixteen digits and
more, such as 4 for 3.9999999999999996, and documents with such decimals read differently there.
-/
namespace BookCatalog.Json
namespace Read

/-- Takes a value off the front of a text. -/
abbrev Reader (α : Type) := List Char → Option (α × List Char)

/-- The four characters that may stand between the parts of a document. -/
def isSpace (c : Char) : Bool := c == ' ' || c == '\t' || c == '\n' || c == '\r'

/-- A text without the spaces at its front. -/
def skipSpace (chars : List Char) : List Char := chars.dropWhile isSpace

/-- Four hexadecimal digits. -/
def codeUnit : Reader Nat
  | a :: b :: c :: d :: rest => do
    let a ← Text.hexValue? a
    let b ← Text.hexValue? b
    let c ← Text.hexValue? c
    let d ← Text.hexValue? d
    some (((a * 16 + b) * 16 + c) * 16 + d, rest)
  | _ => none

/-- A character given by its number. The two halves of a surrogate pair have to stand together. -/
def numbered : Reader Char := fun chars => do
  let (unit, rest) ← codeUnit chars
  if 0xD800 ≤ unit ∧ unit < 0xDC00 then
    match rest with
    | '\\' :: 'u' :: rest => do
      let (low, rest) ← codeUnit rest
      if 0xDC00 ≤ low ∧ low < 0xE000 then
        some (Char.ofNat (0x10000 + (unit - 0xD800) * 0x400 + (low - 0xDC00)), rest)
      else none
    | _ => none
  else if 0xDC00 ≤ unit ∧ unit < 0xE000 then none
  else some (Char.ofNat unit, rest)

/-- What follows a backslash. -/
def escaped : Reader Char
  | '"' :: rest => some ('"', rest)
  | '\\' :: rest => some ('\\', rest)
  | '/' :: rest => some ('/', rest)
  | 'b' :: rest => some ('\x08', rest)
  | 'f' :: rest => some ('\x0c', rest)
  | 'n' :: rest => some ('\n', rest)
  | 'r' :: rest => some ('\r', rest)
  | 't' :: rest => some ('\t', rest)
  | 'u' :: rest => numbered rest
  | _ => none

/-- The characters up to the closing quote. -/
def characters : Nat → Reader (List Char)
  | 0, _ => none
  | _ + 1, [] => none
  | _ + 1, '"' :: rest => some ([], rest)
  | bound + 1, '\\' :: rest => do
    let (c, rest) ← escaped rest
    let (more, rest) ← characters bound rest
    some (c :: more, rest)
  | bound + 1, c :: rest =>
    if c.toNat < 0x20 then none
    else do
      let (more, rest) ← characters bound rest
      some (c :: more, rest)

/-- A text whose opening quote has been taken. -/
def textBody : Reader String := fun chars =>
  (characters chars.length chars).map fun (read, rest) => (.ofList read, rest)

/-- The digits before the point: a lone zero, or digits that start with none. -/
def wholeDigits : Reader (List Char)
  | '0' :: rest => some (['0'], rest)
  | chars => match Decimal.digits chars with
    | ([], _) => none
    | (read, rest) => some (read, rest)

/-- A number from its parts, if it is not too large. -/
def classify (negative : Bool) (whole : List Char) (places : Option (List Char))
    (exponent : Option Int) : Option Number :=
  let double (coefficient : Nat) (exponent : Int) : Option Number :=
    let x := Decimal.toFloat negative coefficient exponent
    if x.isFinite then some (.double x) else none
  match places, exponent with
  | none, none =>
    let n := Decimal.digitsValue whole
    if negative then
      if 0 < n ∧ n ≤ UInt64.size / 2 then some (.whole (-n)) else double n 0
    else if n < UInt64.size then some (.whole n) else double n 0
  | _, _ =>
    let places := places.getD []
    double (Decimal.digitsValue (whole ++ places)) (exponent.getD 0 - places.length)

/-- A number: an optional minus sign, digits, and an optional fraction and exponent. -/
def number : Reader Number := fun chars => do
  let (negative, rest) := match chars with
    | '-' :: rest => (true, rest)
    | _ => (false, chars)
  let (whole, rest) ← wholeDigits rest
  match Decimal.fraction rest with
  | (some [], _) => none
  | (places, rest) =>
    let (exponent, rest) ← Decimal.exponentPart rest
    let read ← classify negative whole places exponent
    some (read, rest)

/-- The items of an array up to its closing bracket; at least one is there. -/
def items (value : Reader Json) : Nat → Reader (List Json)
  | 0, _ => none
  | bound + 1, chars => do
    let (item, rest) ← value (skipSpace chars)
    match skipSpace rest with
    | ',' :: rest =>
      let (more, rest) ← items value bound rest
      some (item :: more, rest)
    | ']' :: rest => some ([item], rest)
    | _ => none

/-- One field of an object. -/
def field (value : Reader Json) : Reader (String × Json) := fun chars =>
  match skipSpace chars with
  | '"' :: rest => do
    let (key, rest) ← textBody rest
    match skipSpace rest with
    | ':' :: rest =>
      let (held, rest) ← value (skipSpace rest)
      some ((key, held), rest)
    | _ => none
  | _ => none

/-- The fields of an object up to its closing brace; at least one is there. -/
def fields (value : Reader Json) : Nat → Reader (List (String × Json))
  | 0, _ => none
  | bound + 1, chars => do
    let (first, rest) ← field value chars
    match skipSpace rest with
    | ',' :: rest =>
      let (more, rest) ← fields value bound rest
      some (first :: more, rest)
    | '}' :: rest => some ([first], rest)
    | _ => none

/-- A value with at most the given number of brackets nested in each other. -/
def value : Nat → Reader Json
  | _, 'n' :: 'u' :: 'l' :: 'l' :: rest => some (.null, rest)
  | _, 't' :: 'r' :: 'u' :: 'e' :: rest => some (.bool true, rest)
  | _, 'f' :: 'a' :: 'l' :: 's' :: 'e' :: rest => some (.bool false, rest)
  | _, '"' :: rest => (textBody rest).map fun (read, rest) => (.text read, rest)
  | 0, '[' :: _ => none
  | depth + 1, '[' :: rest =>
    match skipSpace rest with
    | ']' :: rest => some (.array [], rest)
    | inner => (items (value depth) inner.length inner).map fun (read, rest) => (.array read, rest)
  | 0, '{' :: _ => none
  | depth + 1, '{' :: rest =>
    match skipSpace rest with
    | '}' :: rest => some (.object [], rest)
    | inner => (fields (value depth) inner.length inner).map fun (read, rest) =>
        (.object (Fields.ofAssignments read), rest)
  | _, chars => (number chars).map fun (read, rest) => (.number read, rest)

/-- The most brackets that a document nests in each other. -/
def deepest : Nat := 127

end Read

/-- The value that a text holds, if it holds exactly one. -/
def read? (text : String) : Option Json :=
  match Read.value Read.deepest (Read.skipSpace text.toList) with
  | some (read, rest) => if Read.skipSpace rest = [] then some read else none
  | none => none

/-- The value that a sequence of bytes holds, if it is UTF-8 and holds exactly one. -/
def readBytes? (bytes : ByteArray) : Option Json :=
  (String.fromUTF8? bytes).bind read?

end BookCatalog.Json
