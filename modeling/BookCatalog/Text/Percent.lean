import BookCatalog.Text.Basic

/-!
Percent-encoding for one value in a query string. The UTF-8 bytes of the letters and digits and of
`-`, `_`, `.` and `~` stand for themselves, and every other byte is a percent sign and two
hexadecimal digits, so none of the characters that divide a query string is left in an encoded
value.
-/
namespace BookCatalog.Text.Percent

/-- Whether a byte stands for itself. -/
def isPlain (byte : UInt8) : Bool :=
  let c := Char.ofNat byte.toNat
  c.isAlphanum || c == '-' || c == '_' || c == '.' || c == '~'

/-- A hexadecimal digit in upper case. -/
def hexDigit (value : Nat) : Char := (Nat.digitChar value).toUpper

/-- A byte as it is written. -/
def encodeByte (byte : UInt8) : List Char :=
  if isPlain byte then [Char.ofNat byte.toNat]
  else ['%', hexDigit (byte.toNat / 16), hexDigit (byte.toNat % 16)]

/-- A text as it is written. -/
def encode (text : String) : String :=
  .ofList (text.toUTF8.data.toList.flatMap encodeByte)

/-- The bytes that a written value stands for; characters are taken as their UTF-8 bytes. `none`
when a percent sign has no two digits behind it. -/
def decodeBytes : List Char → Option (List UInt8)
  | [] => some []
  | '%' :: high :: low :: rest => do
    let high ← hexValue? high
    let low ← hexValue? low
    let more ← decodeBytes rest
    some (UInt8.ofNat (16 * high + low) :: more)
  | '%' :: _ => none
  | c :: rest => (decodeBytes rest).map (String.utf8EncodeChar c ++ ·)

/-- The text that a written value stands for. -/
def decode (text : String) : Option String := do
  let bytes ← decodeBytes text.toList
  String.fromUTF8? ⟨bytes.toArray⟩

/-- The parts of a text between the occurrences of a separator. -/
def splitAll (separator : Char) : List Char → List (List Char)
  | [] => [[]]
  | c :: rest =>
    if c = separator then [] :: splitAll separator rest
    else match splitAll separator rest with
      | [] => [[c]]
      | part :: parts => (c :: part) :: parts

/-- The parameters of a query string, as a server reads them: divided by `&`, each a name and a
value around its first `=`, a plus sign for a blank. -/
def parameters (query : String) : List (String × Option String) :=
  (splitAll '&' query.toList).map fun part =>
    let (name, value) := (splitChars '=' part).getD (part, [])
    (.ofList name, decode (.ofList (value.map fun c => if c = '+' then ' ' else c)))

end BookCatalog.Text.Percent
