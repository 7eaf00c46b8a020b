import BookCatalog.Decimal.Shortest

/-!
How a double is written. A style says which exponents are written out positionally, whether a whole
number keeps a decimal point, and which of two equally near shortest decimals is taken. The digits
themselves are those of the shortest decimal, so what is written reads back as the same double. With
fixed places the exact value is rounded once to the wanted number of places, a tie going to the even
neighbour; a minus sign stays even where only zeros are left of the number.
-/
namespace BookCatalog.Decimal

/-! ## Shortest digits -/

/-- The decisions left open by the digits of a double. -/
structure Style where
  /-- First-digit exponents written without an exponent; `none` means all. -/
  positional : Option (Int × Int)
  /-- Whether a whole number ends in `.0`. -/
  wholePoint : Bool
  tie : Tie

/-- Scores shown to people: never an exponent, no point on whole numbers. -/
def Style.plain : Style := ⟨none, false, .up⟩

/-- Numbers in documents: an exponent below -5 and above 15, and always a point or an exponent. -/
def Style.document : Style := ⟨some (-5, 15), true, .even⟩

/-- Whether a number whose first digit stands at `leading` is written out positionally. -/
def Style.writesOut (style : Style) (leading : Int) : Bool :=
  match style.positional with
  | none => true
  | some (lowest, highest) => lowest ≤ leading && leading ≤ highest

/-- Digits with the decimal point put after the digit of the units; `leading` is the position of
the first digit. -/
def pointed (wholePoint : Bool) (digits : List Char) (leading : Int) : List Char :=
  if leading < 0 then
    '0' :: '.' :: List.replicate (-leading - 1).toNat '0' ++ digits
  else
    let whole := leading.toNat + 1
    if digits.length ≤ whole then
      digits ++ List.replicate (whole - digits.length) '0' ++ if wholePoint then ['.', '0'] else []
    else
      digits.take whole ++ '.' :: digits.drop whole

/-- Digits with a point after the first, and a signed exponent. -/
def withExponent (digits : List Char) (leading : Int) : List Char :=
  let fraction := match digits.tail with
    | [] => []
    | more => '.' :: more
  let sign := if leading < 0 then '-' else '+'
  digits.take 1 ++ fraction ++ 'e' :: sign :: Nat.toDigits 10 leading.natAbs

/-- The text of a finite double without its sign. -/
def Style.magnitude (style : Style) (mantissa : Nat) (exponent : Int) : List Char :=
  if mantissa = 0 then pointed style.wholePoint ['0'] 0
  else
    let decimal := shortest style.tie mantissa exponent
    let all := Nat.toDigits 10 decimal.coefficient
    let leading := decimal.exponent + all.length - 1
    let digits := (all.reverse.dropWhile (· == '0')).reverse
    if style.writesOut leading then pointed style.wholePoint digits leading
    else withExponent digits leading

/-- A sign in front of the text of a negative number. -/
def signed (negative : Bool) (text : List Char) : List Char :=
  if negative then '-' :: text else text

/-- The text of a double for people: its shortest digits, or `NaN`, `inf` and `-inf`. -/
def plainText (x : Float) : String :=
  .ofList <| match Value.ofFloat x with
    | .notANumber => ['N', 'a', 'N']
    | .infinite negative => signed negative ['i', 'n', 'f']
    | .finite negative mantissa exponent =>
      signed negative (Style.plain.magnitude mantissa exponent)

/-! ## Fixed places -/

/-- `count / 10 ^ places` with exactly that many places. -/
def placed (places count : Nat) : List Char :=
  let digits := Nat.toDigits 10 count
  let padded := List.replicate (places + 1 - digits.length) '0' ++ digits
  let whole := padded.length - places
  if places = 0 then padded else padded.take whole ++ '.' :: padded.drop whole

/-- The text of a double with a fixed number of places. -/
def fixedText (places : Nat) (x : Float) : String :=
  .ofList <| match Value.ofFloat x with
    | .notANumber => ['N', 'a', 'N']
    | .infinite negative => signed negative ['i', 'n', 'f']
    | .finite negative mantissa exponent =>
      let (numerator, denominator) := ratio 2 mantissa exponent
      signed negative (placed places (roundDiv .even (numerator * Nat.pow 10 places) denominator))

end BookCatalog.Decimal
