import BookCatalog.Decimal.Style

/-!
The numbers a chart is drawn with. The geometry of a chart needs the four operations, decimal
constants, counting, and texts for labels, and is worked out in doubles. Exact rational numbers have
all of that too, so the same geometry can be read exactly.
-/
namespace BookCatalog.Chart

/-- What the geometry of a chart asks of its numbers. -/
class Quantity (α : Type) extends Add α, Sub α, Mul α, Div α, OfScientific α where
  /-- The nearest count, halves upwards; zero for a negative number, the largest count for too large a one. -/
  nearestCount : α → Nat
  /-- The text of a score. -/
  plain : α → String
  /-- The text with one place. -/
  onePlace : α → String

/-- A count as a number. -/
def Quantity.ofCount {α : Type} [Quantity α] (count : Nat) : α :=
  OfScientific.ofScientific count false 0

/-- The largest count, which stands for everything above it. -/
def largestCount : Nat := UInt64.size - 1

/-- The nearest count of a double, zero for what is no number. -/
def saturatingCount (x : Float) : Nat :=
  match Decimal.Value.ofFloat x with
  | .finite false mantissa exponent =>
    let (numerator, denominator) := Decimal.ratio 2 mantissa exponent
    min largestCount (Decimal.roundDiv .up numerator denominator)
  | .infinite false => largestCount
  | _ => 0

instance : Quantity Float where
  nearestCount := saturatingCount
  plain := Decimal.plainText
  onePlace := Decimal.fixedText 1

/-- A rational number with one place. -/
def rationalOnePlace (x : Rat) : String :=
  .ofList (Decimal.signed (x < 0)
    (Decimal.placed 1 (Decimal.roundDiv .even (x.num.natAbs * 10) x.den)))

instance : Quantity Rat where
  nearestCount x := min largestCount (Decimal.roundDiv .up x.num.toNat x.den)
  plain x := toString x
  onePlace := rationalOnePlace

end BookCatalog.Chart
