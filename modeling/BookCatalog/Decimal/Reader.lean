/-!
Reading decimals. A decimal is a coefficient and a power of ten; its double is the nearest one, a
tie going to the even mantissa, with an infinity above the largest double. The same conversion
serves whole numbers, which are decimals with exponent zero.
-/
namespace BookCatalog.Decimal

/-- The double nearest to `± coefficient · 10 ^ exponent`. -/
def toFloat (negative : Bool) (coefficient : Nat) (exponent : Int) : Float :=
  let size := Float.ofScientific coefficient (exponent < 0) exponent.natAbs
  if negative then -size else size

/-- The double nearest to a whole number. -/
def ofInt (n : Int) : Float := toFloat (n < 0) n.natAbs 0

/-- The digits at the front of a text, and the rest. -/
def digits (chars : List Char) : List Char × List Char :=
  (chars.takeWhile Char.isDigit, chars.dropWhile Char.isDigit)

/-- The number that a list of decimal digits denotes. -/
def digitsValue (chars : List Char) : Nat := Nat.ofDigitChars 10 chars 0

/-- An optional sign at the front of a text. -/
def sign (chars : List Char) : Bool × List Char :=
  match chars with
  | '-' :: rest => (true, rest)
  | '+' :: rest => (false, rest)
  | _ => (false, chars)

/-- A point and the digits after it, if the text starts with a point. -/
def fraction (chars : List Char) : Option (List Char) × List Char :=
  match chars with
  | '.' :: rest => let (places, rest) := digits rest; (some places, rest)
  | _ => (none, chars)

/-- An exponent part: nothing, or an `e` in either case, a sign and at least one digit. `none` when
the digits are missing. -/
def exponentPart (chars : List Char) : Option (Option Int × List Char) :=
  let signedDigits (rest : List Char) : Option (Option Int × List Char) :=
    let (negative, rest) := sign rest
    match digits rest with
    | ([], _) => none
    | (read, rest) =>
      let size : Int := digitsValue read
      some (some (if negative then -size else size), rest)
  match chars with
  | 'e' :: rest => signedDigits rest
  | 'E' :: rest => signedDigits rest
  | _ => some (none, chars)

/-- An unsigned decimal that takes up the whole text: digits with an optional point, at least one of
them, and an optional exponent. -/
def unsigned? (chars : List Char) : Option (Nat × Int) :=
  let (whole, rest) := digits chars
  let (places, rest) := fraction rest
  let places := places.getD []
  match exponentPart rest with
  | some (exponent, []) =>
    if whole ++ places = [] then none
    else some (digitsValue (whole ++ places), exponent.getD 0 - places.length)
  | _ => none

/-- The double that a text denotes: a signed decimal, `inf`, `infinity` or `nan` in any case of
letters. -/
def readFloat? (text : String) : Option Float :=
  let (negative, rest) := sign text.toList
  let word := rest.map Char.toLower
  if word = "nan".toList then some (0.0 / 0.0)
  else if word = "inf".toList ∨ word = "infinity".toList then
    some (if negative then -(1.0 / 0.0) else 1.0 / 0.0)
  else (unsigned? rest).map fun (coefficient, exponent) => toFloat negative coefficient exponent

end BookCatalog.Decimal
