/-!
Reading counts. A count is written in decimal digits, with a plus sign in front or without, and is
below a bound. The digits are taken from the left, and the first one that is no digit or that leads
past the bound decides what is wrong.
-/
namespace BookCatalog.Decimal

/-- What is wrong with the text of a count. -/
inductive NumeralProblem where
  | empty
  | invalidDigit
  | tooLarge
  deriving DecidableEq

/-- The wording of a problem. -/
def NumeralProblem.message : NumeralProblem → String
  | .empty => "cannot parse integer from empty string"
  | .invalidDigit => "invalid digit found in string"
  | .tooLarge => "number too large to fit in target type"

/-- Takes digits onto a number that has been read so far. -/
def countDigits (bound : Nat) : Nat → List Char → Except NumeralProblem Nat
  | read, [] => .ok read
  | read, c :: rest =>
    if c.isDigit then
      let next := 10 * read + (c.toNat - '0'.toNat)
      if next < bound then countDigits bound next rest else .error .tooLarge
    else .error .invalidDigit

/-- The count below a bound that a text denotes. -/
def readCount (bound : Nat) (text : String) : Except NumeralProblem Nat :=
  match text.toList with
  | [] => .error .empty
  | ['+'] => .error .invalidDigit
  | '+' :: rest => countDigits bound 0 rest
  | chars => countDigits bound 0 chars

/-- The bound of counts, which take sixty-four bits. -/
def countBound : Nat := UInt64.size

end BookCatalog.Decimal
