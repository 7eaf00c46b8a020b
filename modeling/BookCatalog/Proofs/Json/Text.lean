import BookCatalog.Json.Reader
import BookCatalog.Json.Writer

/-!
A text comes back from between its quotes. Every character has one escaped form, the reader takes that
form off the front and gives the character, and none of the forms begins with the closing quote.
-/
namespace BookCatalog.Json

open Read

theorem hexValue?_digitChar : ∀ digit < 16, Text.hexValue? (Nat.digitChar digit) = some digit := by
  decide

/-- A control character is given by its number. -/
theorem numbered_control {c : Char} (control : c.toNat < 0x20) (rest : List Char) :
    numbered ('0' :: '0' :: Nat.digitChar (c.toNat / 16) :: Nat.digitChar (c.toNat % 16) :: rest) =
      some (c, rest) := by
  have zero : Text.hexValue? '0' = some 0 := rfl
  have high := hexValue?_digitChar (c.toNat / 16) (by omega)
  have low := hexValue?_digitChar (c.toNat % 16) (by omega)
  have unit : ((0 * 16 + 0) * 16 + c.toNat / 16) * 16 + c.toNat % 16 = c.toNat := by omega
  have read : codeUnit ('0' :: '0' :: Nat.digitChar (c.toNat / 16) ::
      Nat.digitChar (c.toNat % 16) :: rest) = some (c.toNat, rest) := by
    simp only [codeUnit, zero, high, low, Option.bind_eq_bind, Option.bind_some, unit]
  have leading : ¬ (0xD800 ≤ c.toNat ∧ c.toNat < 0xDC00) := by omega
  have trailing : ¬ (0xDC00 ≤ c.toNat ∧ c.toNat < 0xE000) := by omega
  simp only [numbered, read, Option.bind_eq_bind, Option.bind_some, leading, trailing, ↓reduceIte,
    Char.ofNat_toNat]

/-- A character comes back from its escaped form. -/
theorem characters_escapeChar (c : Char) (bound : Nat) (rest : List Char) :
    characters (bound + 1) (escapeChar c ++ rest) =
      (characters bound rest).map fun (read, rest) => (c :: read, rest) := by
  unfold escapeChar
  split
  case h_8 _ quote backslash _ _ _ _ _ =>
    split
    · rename_i control
      simp only [List.cons_append, List.nil_append, characters, escaped, numbered_control control,
        Option.bind_eq_bind, Option.bind_some]
      cases characters bound rest <;> rfl
    · rename_i printed
      rw [List.cons_append, characters, List.nil_append]
      · simp only [printed, ↓reduceIte]
        cases characters bound rest <;> rfl
      · exact quote
      · exact backslash
  all_goals
    simp only [List.cons_append, List.nil_append, characters, escaped, Option.bind_eq_bind,
      Option.bind_some]
    cases characters bound rest <;> rfl

theorem characters_escape {text : List Char} {bound : Nat} (enough : text.length < bound)
    (rest : List Char) :
    characters bound (text.flatMap escapeChar ++ '"' :: rest) = some (text, rest) := by
  induction text generalizing bound with
  | nil =>
    obtain ⟨bound, rfl⟩ := Nat.exists_eq_add_of_lt enough
    simp [characters]
  | cons c text ih =>
    obtain ⟨bound, rfl⟩ : ∃ smaller, bound = smaller + 1 := ⟨bound - 1, by omega⟩
    have fewer : text.length < bound := by simpa using enough
    rw [List.flatMap_cons, List.append_assoc, characters_escapeChar, ih fewer]
    rfl

theorem length_le_escape (text : List Char) : text.length ≤ (text.flatMap escapeChar).length := by
  induction text with
  | nil => simp
  | cons c text ih =>
    have nonempty : 1 ≤ (escapeChar c).length := by
      unfold escapeChar
      split
      case h_8 => split <;> simp
      all_goals simp
    simp only [List.flatMap_cons, List.length_append, List.length_cons]
    omega

/-- **A text comes back from between its quotes,** whatever stands behind them. -/
theorem textBody_quote (text : String) (rest : List Char) :
    textBody (text.toList.flatMap escapeChar ++ '"' :: rest) = some (text, rest) := by
  have long := length_le_escape text.toList
  rw [textBody, characters_escape (by simp only [List.length_append, List.length_cons]; omega)]
  simp

theorem toList_quote (text : String) :
    (quote text).toList = '"' :: (text.toList.flatMap escapeChar ++ ['"']) := by
  simp [quote]

end BookCatalog.Json
