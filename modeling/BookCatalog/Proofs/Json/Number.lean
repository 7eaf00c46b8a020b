import BookCatalog.Json.Reader
import BookCatalog.Json.Writer

/-!
Whole numbers of sixty-four bits come back from their digits. The digits of a number start with a zero
only if it is zero, and reading stops behind them as long as what follows cannot go on with a number.
-/
namespace BookCatalog.Json

open Read

/-- Whether a whole number fits into sixty-four bits, with a sign or without. -/
def IsWord (n : Int) : Prop := -((UInt64.size / 2 : Nat) : Int) ≤ n ∧ n < (UInt64.size : Nat)

instance (n : Int) : Decidable (IsWord n) := inferInstanceAs (Decidable (_ ∧ _))

/-- Whether a number could go on with a character. -/
def continuesNumber (c : Char) : Bool := c.isDigit || c == '.' || c == 'e' || c == 'E'

/-- What may stand behind a number. -/
def Ends (rest : List Char) : Prop := ∀ c ∈ rest.head?, continuesNumber c = false

theorem toDigits_head (n : Nat) (positive : 0 < n) :
    ∃ first others, Nat.toDigits 10 n = first :: others ∧ first ≠ '0' := by
  induction n using Nat.strongRecOn with
  | ind n ih =>
    by_cases single : n < 10
    · have digits : ∀ digit < 10, 0 < digit → Nat.digitChar digit ≠ '0' := by decide
      exact ⟨_, [], Nat.toDigits_of_lt_base single, digits n single positive⟩
    · obtain ⟨first, others, digits, nonzero⟩ := ih (n / 10) (by omega) (by omega)
      refine ⟨first, others ++ [Nat.digitChar (n % 10)], ?_, nonzero⟩
      rw [Nat.toDigits_of_base_le (by decide) (by omega), digits, List.cons_append]

theorem digits_toDigits (n : Nat) {rest : List Char} (ends : Ends rest) :
    Decimal.digits (Nat.toDigits 10 n ++ rest) = (Nat.toDigits 10 n, rest) := by
  have digits : ∀ c ∈ Nat.toDigits 10 n, c.isDigit = true := fun c member =>
    Nat.isDigit_of_mem_toDigits (by decide) (by decide) member
  have stop : rest.takeWhile Char.isDigit = [] ∧ rest.dropWhile Char.isDigit = rest := by
    cases rest with
    | nil => simp
    | cons c rest =>
      have stopped := ends c rfl
      simp only [continuesNumber, Bool.or_eq_false_iff] at stopped
      simp [stopped.1.1.1]
  rw [Decimal.digits, List.takeWhile_append_of_pos digits, List.dropWhile_append_of_pos digits, stop.1,
    stop.2, List.append_nil]

theorem wholeDigits_toDigits (n : Nat) {rest : List Char} (ends : Ends rest) :
    wholeDigits (Nat.toDigits 10 n ++ rest) = some (Nat.toDigits 10 n, rest) := by
  by_cases positive : 0 < n
  · obtain ⟨first, others, digits, nonzero⟩ := toDigits_head n positive
    have read := digits_toDigits n ends
    rw [digits, List.cons_append] at read ⊢
    rw [wholeDigits, read]
    intro behind same
    exact nonzero (List.cons.inj same).1
  · obtain rfl : n = 0 := by omega
    rfl

theorem fraction_of_ends {rest : List Char} (ends : Ends rest) : Decimal.fraction rest = (none, rest) := by
  unfold Decimal.fraction
  split
  · have stopped := ends '.' rfl
    contradiction
  · rfl

theorem exponentPart_of_ends {rest : List Char} (ends : Ends rest) :
    Decimal.exponentPart rest = some (none, rest) := by
  unfold Decimal.exponentPart
  split
  · have stopped := ends 'e' rfl
    contradiction
  · have stopped := ends 'E' rfl
    contradiction
  · rfl

theorem digitsValue_toDigits (n : Nat) : Decimal.digitsValue (Nat.toDigits 10 n) = n :=
  Nat.ofDigitChars_toDigits (by decide) (by decide)

theorem classify_toDigits {n : Int} (word : IsWord n) :
    classify (n < 0) (Nat.toDigits 10 n.natAbs) none none = some (.whole n) := by
  obtain ⟨low, high⟩ := word
  simp only [classify, digitsValue_toDigits]
  by_cases negative : n < 0
  · have inside : 0 < n.natAbs ∧ n.natAbs ≤ UInt64.size / 2 := by omega
    have own : -(n.natAbs : Int) = n := by omega
    simp only [negative, inside, own, decide_true, and_self, ↓reduceIte]
  · have inside : n.natAbs < UInt64.size := by omega
    have own : (n.natAbs : Int) = n := by omega
    simp only [negative, inside, own, decide_false, Bool.false_eq_true, ↓reduceIte]

theorem toDigits_begins (n : Nat) :
    ∃ first others, Nat.toDigits 10 n = first :: others ∧ first.isDigit = true := by
  obtain ⟨first, others, shape⟩ := List.exists_cons_of_ne_nil (Nat.toDigits_ne_nil (n := n) (b := 10))
  have member : first ∈ Nat.toDigits 10 n := by simp [shape]
  exact ⟨first, others, shape, Nat.isDigit_of_mem_toDigits (by decide) (by decide) member⟩

/-- The text of a number begins with a digit or with a minus sign. -/
theorem wholeText_begins (n : Int) : ∃ first others, (wholeText n).toList = first :: others ∧
    (first = '-' ∨ first.isDigit = true) := by
  obtain ⟨first, others, shape, digit⟩ := toDigits_begins n.natAbs
  by_cases negative : n < 0
  · exact ⟨'-', first :: others, by simp [wholeText, Decimal.signed, negative, shape], .inl rfl⟩
  · exact ⟨first, others, by simp [wholeText, Decimal.signed, negative, shape], .inr digit⟩

/-- Digits begin with a digit and not with a sign. -/
theorem digits_ne_minus (n : Nat) (rest behind : List Char) :
    Nat.toDigits 10 n ++ rest ≠ '-' :: behind := by
  intro same
  obtain ⟨first, others, shape, digit⟩ := toDigits_begins n
  rw [shape, List.cons_append] at same
  rw [(List.cons.inj same).1] at digit
  contradiction

/-- **A whole number comes back from its text.** -/
theorem number_wholeText {n : Int} (word : IsWord n) {rest : List Char} (ends : Ends rest) :
    Read.number ((wholeText n).toList ++ rest) = some (Number.whole n, rest) := by
  have digits := wholeDigits_toDigits n.natAbs ends
  have parts := classify_toDigits word
  have noPlaces := fraction_of_ends ends
  have noExponent := exponentPart_of_ends ends
  by_cases negative : n < 0
  · simp only [negative, decide_true] at parts
    simp [Read.number, wholeText, Decimal.signed, negative, digits, noPlaces, noExponent, parts]
  · simp only [negative, decide_false] at parts
    -- tells the reader's two cases apart: there is no sign to take off
    have unsigned := digits_ne_minus n.natAbs rest
    simp [Read.number, wholeText, Decimal.signed, negative, digits, noPlaces, noExponent, parts]

end BookCatalog.Json
