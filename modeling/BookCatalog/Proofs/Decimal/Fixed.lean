import BookCatalog.Decimal.Style
import BookCatalog.Decimal.Reader
import BookCatalog.Proofs.Double.Order

/-!
What fixed places write out. A finite double comes out as digits with a point between them, and a minus sign in front
if it has one, so the text is the one of a number, which is on the same side of zero as the double. An infinity and
what is no number come out as words.
-/
namespace BookCatalog.Decimal

/-! ## Rounding to whole numbers -/

/-- Rounding halves upwards is adding one half and rounding down. -/
theorem roundDiv_up {numerator denominator : Nat} (pos : 0 < denominator) :
    roundDiv .up numerator denominator = (2 * numerator + denominator) / (2 * denominator) := by
  have parts := Nat.div_add_mod numerator denominator
  have rest := Nat.mod_lt numerator pos
  rw [roundDiv]
  generalize numerator / denominator = whole at *
  generalize numerator % denominator = left at *
  have twice : 2 * numerator + denominator = 2 * denominator * whole + (2 * left + denominator) := by
    rw [← parts]
    ring
  rw [twice, Nat.mul_add_div (by omega)]
  rcases lt_trichotomy (2 * left) denominator with less | half | more
  · rw [Nat.compare_eq_lt.mpr less, Nat.div_eq_of_lt (by omega), add_zero]
  · rw [Nat.compare_eq_eq.mpr half, half, ← two_mul, Nat.div_self (by omega)]
  · have once : (2 * left + denominator) / (2 * denominator) = 1 := Nat.div_eq_of_lt_le (by omega) (by omega)
    rw [Nat.compare_eq_gt.mpr more, once]

theorem roundDiv_zero (tie : Tie) {denominator : Nat} (pos : 0 < denominator) : roundDiv tie 0 denominator = 0 := by
  rw [roundDiv.eq_def]
  dsimp only
  rw [Nat.zero_mod, mul_zero, Nat.compare_eq_lt.mpr pos, Nat.zero_div]

/-! ## Numbers written out -/

/-- The number that digits write out, with a point and more digits behind them or without. -/
def size? (chars : List Char) : Option ℚ :=
  let (whole, rest) := digits chars
  match whole, fraction rest with
  | _ :: _, (none, []) => some (digitsValue whole)
  | _ :: _, (some (digit :: more), []) => some (digitsValue (whole ++ digit :: more) / 10 ^ (digit :: more).length)
  | _, _ => none

/-- The number that a text writes out plainly: a minus sign or none, digits, and no exponent. There is none for a
text of any other form. -/
def written? (text : String) : Option ℚ :=
  match text.toList with
  | '-' :: chars => (size? chars).map Neg.neg
  | chars => size? chars

variable {whole more : List Char} {places count : Nat}

theorem size?_point (nonempty : whole ≠ []) (nonempty' : more ≠ []) (decimal : ∀ c ∈ whole, c.isDigit = true)
    (decimal' : ∀ c ∈ more, c.isDigit = true) :
    size? (whole ++ '.' :: more) = some ((digitsValue (whole ++ more) : ℚ) / 10 ^ more.length) := by
  obtain ⟨first, others, rfl⟩ := List.exists_cons_of_ne_nil nonempty
  obtain ⟨digit, rest, rfl⟩ := List.exists_cons_of_ne_nil nonempty'
  have front : digits (first :: others ++ '.' :: digit :: rest) = (first :: others, '.' :: digit :: rest) := by
    rw [digits, List.takeWhile_append_of_pos decimal, List.dropWhile_append_of_pos decimal]
    simp
  have behind : fraction ('.' :: digit :: rest) = (some (digit :: rest), []) := by
    rw [fraction, digits, List.takeWhile_eq_self_iff.mpr decimal', List.dropWhile_eq_nil_iff.mpr decimal']
  rw [size?, front]
  dsimp only
  rw [behind]

/-- The digits of a count with zeros in front. -/
def padded (places count : Nat) : List Char :=
  List.replicate (places + 1 - (Nat.toDigits 10 count).length) '0' ++ Nat.toDigits 10 count

theorem padded_decimal : ∀ c ∈ padded places count, c.isDigit = true := by
  intro c member
  rw [padded, List.mem_append] at member
  rcases member with zero | digit
  · rw [List.eq_of_mem_replicate zero]
    rfl
  · exact Nat.isDigit_of_mem_toDigits (by decide) (by decide) digit

theorem lt_length_padded : places < (padded places count).length := by
  rw [padded, List.length_append, List.length_replicate]
  omega

theorem digitsValue_padded : digitsValue (padded places count) = count := by
  rw [digitsValue, padded, Nat.ofDigitChars_append, Nat.ofDigitChars_replicate_zero, mul_zero]
  exact Nat.ofDigitChars_toDigits (by decide) (by decide)

theorem placed_eq (pointed : places ≠ 0) :
    placed places count = (padded places count).take ((padded places count).length - places) ++
      '.' :: (padded places count).drop ((padded places count).length - places) := by
  rw [placed, if_neg pointed]
  rfl

theorem size?_placed (pointed : places ≠ 0) : size? (placed places count) = some ((count : ℚ) / 10 ^ places) := by
  have long : places < (padded places count).length := lt_length_padded
  have decimal : ∀ c ∈ padded places count, c.isDigit = true := padded_decimal
  rw [placed_eq pointed, size?_point]
  · rw [List.take_append_drop, digitsValue_padded, List.length_drop, Nat.sub_sub_self long.le]
  · rw [← List.length_pos_iff, List.length_take]
    omega
  · rw [← List.length_pos_iff, List.length_drop]
    omega
  · exact fun c member => decimal c (List.mem_of_mem_take member)
  · exact fun c member => decimal c (List.mem_of_mem_drop member)

/-- Digits begin with no sign. -/
theorem placed_ne_minus (pointed : places ≠ 0) (rest : List Char) : placed places count ≠ '-' :: rest := by
  intro same
  have long : places < (padded places count).length := lt_length_padded
  have decimal : ∀ c ∈ padded places count, c.isDigit = true := padded_decimal
  obtain ⟨first, others, shape⟩ := List.exists_cons_of_length_pos (Nat.zero_lt_of_lt long)
  have front : 0 < (padded places count).length - places := by omega
  rw [placed_eq pointed, shape] at same
  rw [shape] at front decimal
  rw [List.take_cons front, List.cons_append] at same
  have digit := decimal first List.mem_cons_self
  rw [(List.cons.inj same).1] at digit
  contradiction

theorem mem_placed (pointed : places ≠ 0) {c : Char} (member : c ∈ placed places count) :
    c.isDigit = true ∨ c = '.' := by
  rw [placed_eq pointed, List.mem_append, List.mem_cons] at member
  rcases member with front | point | behind
  · exact .inl (padded_decimal c (List.mem_of_mem_take front))
  · exact .inr point
  · exact .inl (padded_decimal c (List.mem_of_mem_drop behind))

theorem written?_placed (pointed : places ≠ 0) (negative : Bool) :
    written? (.ofList (signed negative (placed places count))) =
      some ((if negative then -1 else 1) * ((count : ℚ) / 10 ^ places)) := by
  have size : size? (placed places count) = _ := size?_placed pointed
  rw [written?, String.toList_ofList]
  cases negative with
  | true =>
    rw [signed, if_pos rfl]
    simp [size]
  | false =>
    rw [signed, if_neg Bool.false_ne_true]
    split
    · exact absurd ‹_› (placed_ne_minus pointed _)
    · simp [size]

/-! ## Doubles -/

/-- **A finite double with fixed places is a number written out**, and not below zero if the double is not. -/
theorem exists_written_fixedText {x : Float} (finite : x.isFinite = true) (pointed : places ≠ 0) :
    ∃ value, written? (fixedText places x) = some value ∧ (0 ≤ Double.amount (Double.parts x) → 0 ≤ value) := by
  obtain ⟨s, zero⟩ | ⟨s, m, e, pos, taken⟩ := Double.isFinite_cases (a := Double.parts x) finite
  · have value : Value.ofFloat x = .finite (s == .negative) 0 0 := by
      rw [Value.ofFloat]
      rw [Double.parts] at zero
      rw [zero]
    rw [fixedText, value]
    refine ⟨_, written?_placed pointed _, fun _ => ?_⟩
    simp [roundDiv_zero]
  · have value : Value.ofFloat x = .finite (s == .negative) m e := by
      rw [Value.ofFloat]
      rw [Double.parts] at taken
      rw [taken]
    rw [fixedText, value]
    refine ⟨_, written?_placed pointed _, fun nonneg => ?_⟩
    cases s with
    | positive =>
      rw [if_neg (by decide)]
      positivity
    | negative =>
      have size := Double.magnitude_pos pos e
      rw [taken, Double.amount, Double.factor_negative] at nonneg
      linarith

/-- The text of a double holds digits, a sign, a point and the letters of two words, and nothing else. -/
theorem mem_fixedText (pointed : places ≠ 0) (x : Float) {c : Char} (member : c ∈ (fixedText places x).toList) :
    c.isDigit = true ∨ c ∈ ['-', '.', 'N', 'a', 'i', 'n', 'f'] := by
  have unsigned : ∀ negative chars, c ∈ signed negative chars → c = '-' ∨ c ∈ chars := by
    intro negative chars inside
    cases negative with
    | false => exact .inr inside
    | true => exact List.mem_cons.mp inside
  have words : ['N', 'a', 'N'] ++ ['i', 'n', 'f'] ⊆ ['-', '.', 'N', 'a', 'i', 'n', 'f'] := by simp
  rw [fixedText, String.toList_ofList] at member
  cases value : Value.ofFloat x with
  | notANumber =>
    rw [value] at member
    exact .inr (words (List.mem_append_left _ member))
  | infinite negative =>
    rw [value] at member
    rcases unsigned _ _ member with rfl | letter
    · exact .inr List.mem_cons_self
    · exact .inr (words (List.mem_append_right _ letter))
  | finite negative mantissa exponent =>
    rw [value] at member
    rcases unsigned _ _ member with rfl | written
    · exact .inr List.mem_cons_self
    · rcases mem_placed pointed written with digit | rfl
      · exact .inl digit
      · exact .inr (List.mem_cons_of_mem _ List.mem_cons_self)

-- What is written out for other doubles is no number, and neither is one with an exponent.
example : written? (fixedText 2 (-1.5)) = some (-3 / 2) ∧ written? (fixedText 2 (0.0 / 0.0)) = none ∧
    written? (fixedText 2 (-1.0 / 0.0)) = none ∧ written? "1e5" = none := by decide +kernel

end BookCatalog.Decimal
