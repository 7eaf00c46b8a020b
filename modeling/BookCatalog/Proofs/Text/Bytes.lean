/-!
Texts in the order of their bytes. UTF-8 gives a greater character greater bytes, of whatever length both
are and whatever stands behind them, so comparing texts character by character and comparing them byte by
byte comes to the same.
-/
namespace BookCatalog.Text

/-- The bytes of a text in UTF-8. -/
def bytes (text : String) : List UInt8 := text.toUTF8.data.toList

variable {text other : String} {c d : Char}

theorem bytes_eq (text : String) : bytes text = text.toList.flatMap String.utf8EncodeChar := by
  have encoded : text.toUTF8 = text.toList.utf8Encode := by simp
  rw [bytes, encoded, List.utf8Encode]
  simp

/-- What stands behind two characters has no say in the order of their bytes. -/
theorem utf8EncodeChar_lt (less : c < d) (behind behind' : List UInt8) :
    String.utf8EncodeChar c ++ behind < String.utf8EncodeChar d ++ behind' := by
  have less : c.val.toNat < d.val.toNat := less
  have bound : d.val.toNat < 0x110000 := by
    rcases d.valid with low | high <;> omega
  have byte : ∀ n < 256, n % 2 ^ 8 = n := fun n => Nat.mod_eq_of_lt
  -- Each byte holds six bits, so a shift by twelve or eighteen is repeated shifting by six.
  have twelve : ∀ n, n / 4096 = n / 64 / 64 := fun n => by omega
  have eighteen : ∀ n, n / 262144 = n / 4096 / 64 := fun n => by omega
  unfold String.utf8EncodeChar
  dsimp only
  generalize c.val.toNat = n at less
  generalize d.val.toNat = m at less bound
  repeat' split
  all_goals
    simp (disch := omega) only [List.cons_append, List.nil_append, List.cons_lt_cons_iff,
      UInt8.lt_iff_toNat_lt, ← UInt8.toNat_inj, UInt8.toNat_ofNat', byte, twelve, eighteen]
    omega

theorem utf8EncodeChar_ne_nil (c : Char) : String.utf8EncodeChar c ≠ [] := by
  intro empty
  have size := String.length_utf8EncodeChar c
  rw [empty] at size
  exact absurd size (Nat.ne_of_lt c.utf8Size_pos)

/-- A text that comes first by its characters comes first by its bytes. -/
theorem bytes_lt (less : text < other) : bytes text < bytes other := by
  rw [bytes_eq, bytes_eq]
  have less : text.toList < other.toList := less
  generalize text.toList = chars at less
  generalize other.toList = others at less
  induction chars generalizing others with
  | nil =>
    cases others with
    | nil => exact absurd less (List.not_lt_nil [])
    | cons d others =>
      obtain ⟨byte, more, encoded⟩ := List.exists_cons_of_ne_nil (utf8EncodeChar_ne_nil d)
      rw [List.flatMap_nil, List.flatMap_cons, encoded, List.cons_append]
      exact List.nil_lt_cons ..
  | cons c chars ih =>
    cases others with
    | nil => exact absurd less (List.not_lt_nil _)
    | cons d others =>
      rw [List.flatMap_cons, List.flatMap_cons]
      rcases List.cons_lt_cons_iff.mp less with below | ⟨rfl, behind⟩
      · exact utf8EncodeChar_lt below _ _
      · exact List.append_left_lt (ih others behind)

/-- **Texts are in one order by their characters and by their bytes.** -/
theorem bytes_le_iff : bytes text ≤ bytes other ↔ text ≤ other := by
  constructor
  · intro least below
    exact least (bytes_lt below)
  · intro least below
    by_cases same : text = other
    · rw [same] at below
      exact List.lt_irrefl _ below
    · exact List.lt_asymm below (bytes_lt (Std.lt_of_le_of_ne least same))

end BookCatalog.Text
