import BookCatalog.Decimal.Value

/-!
The shortest decimal of a double: the fewest digits that read back as the same double, and of the
decimals with that many digits the nearest. Both are found in exact arithmetic. The reals that
round to a double form an interval around it; for one digit, two digits and so on, the two
neighbours of the value on that decimal grid are tried, since a grid with any point in the interval
has one of these two in it.
-/
/-- A positive decimal `coefficient · 10 ^ exponent`. -/
structure BookCatalog.Decimal where
  coefficient : Nat
  exponent : Int

namespace BookCatalog.Decimal

/-- The reals that round to a double, in units of `1 / denominator`. -/
structure Interval where
  low : Nat
  value : Nat
  high : Nat
  denominator : Nat
  /-- Whether the two ends round to the double too. -/
  closed : Bool

/-- The interval of `mantissa · 2 ^ exponent`. The gap below a power of two is half the gap above
it, and ends go to the even mantissa. -/
def Interval.around (mantissa : Nat) (exponent : Int) : Interval :=
  let (scale, denominator) := ratio 2 1 (exponent - 2)
  let below := if mantissa = Nat.pow 2 52 ∧ exponent ≠ -1074 then 1 else 2
  { low := (4 * mantissa - below) * scale
    value := 4 * mantissa * scale
    high := (4 * mantissa + 2) * scale
    denominator := denominator
    closed := mantissa % 2 == 0 }

/-- The position of the first digit: the value is at least `10 ^ k` and less than `10 ^ (k + 1)`. -/
def Interval.leadingExponent (interval : Interval) : Int :=
  if interval.denominator ≤ interval.value then
    digitCount (interval.value / interval.denominator) - 1
  else
    -(digitCount ((interval.denominator - 1) / interval.value) : Int)

/-- The multiple of `10 ^ grid` next to the value that lies in the interval, if one does; of two
the nearer. -/
def Interval.onGrid (interval : Interval) (tie : Tie) (grid : Int) : Option Nat :=
  let (coarse, fine) := ratio 10 1 grid
  let step := interval.denominator * coarse
  let inside (count : Nat) : Bool :=
    if interval.closed then
      interval.low * fine ≤ count * step && count * step ≤ interval.high * fine
    else interval.low * fine < count * step && count * step < interval.high * fine
  let below := interval.value * fine / step
  match inside below, inside (below + 1) with
  | true, true => some (roundDiv tie (interval.value * fine) step)
  | true, false => some below
  | false, true => some (below + 1)
  | false, false => none

/-- The shortest decimal of the positive double `mantissa · 2 ^ exponent`. Seventeen digits always
suffice. -/
def shortest (tie : Tie) (mantissa : Nat) (exponent : Int) : Decimal :=
  let interval := Interval.around mantissa exponent
  let leading := interval.leadingExponent
  let found := (List.range 17).findSome? fun (digits : Nat) =>
    (interval.onGrid tie (leading - digits)).map (Decimal.mk · (leading - digits))
  found.getD ⟨mantissa, exponent⟩

end BookCatalog.Decimal
