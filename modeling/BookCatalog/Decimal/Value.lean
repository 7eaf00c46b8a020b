/-!
A double is not a number, an infinity, or exactly a sign, a natural number and a power of two.
Everything printed about a double is worked out from that exact value with natural numbers.
-/
namespace BookCatalog.Decimal

/-- What a double stands for. A finite one is `± mantissa · 2 ^ exponent`. -/
inductive Value where
  | notANumber
  | infinite (negative : Bool)
  | finite (negative : Bool) (mantissa : Nat) (exponent : Int)

/-- The exact value of a double. A zero has mantissa zero and keeps its sign. -/
def Value.ofFloat (x : Float) : Value :=
  match x.toModel.unpack with
  | .notANumber => .notANumber
  | .infinity sign => .infinite (sign == .negative)
  | .zero sign => .finite (sign == .negative) 0 0
  | .finite sign mantissa exponent _ => .finite (sign == .negative) mantissa exponent

/-- Two natural numbers whose quotient is `mantissa · base ^ exponent`. -/
def ratio (base mantissa : Nat) (exponent : Int) : Nat × Nat :=
  (mantissa * Nat.pow base exponent.toNat, Nat.pow base (-exponent).toNat)

/-- What becomes of a number halfway between two neighbours. -/
inductive Tie where
  | up
  | even
  deriving DecidableEq

/-- The natural number nearest to `numerator / denominator`. -/
def roundDiv (tie : Tie) (numerator denominator : Nat) : Nat :=
  let below := numerator / denominator
  match compare (2 * (numerator % denominator)) denominator with
  | .lt => below
  | .gt => below + 1
  | .eq => match tie with
    | .up => below + 1
    | .even => below + below % 2

/-- Number of decimal digits of a natural number, one for zero. -/
def digitCount (n : Nat) : Nat := (Nat.toDigits 10 n).length

end BookCatalog.Decimal
