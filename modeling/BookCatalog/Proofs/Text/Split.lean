import BookCatalog.Text.Basic

/-!
Splitting undoes joining: what was put in front of a separator, and does not hold it, is what splitting
finds there.
-/
namespace BookCatalog.Text

variable {separator : Char} {before before' after after' : List Char}

theorem splitChars_append (absent : separator ∉ before) (after : List Char) :
    splitChars separator (before ++ separator :: after) = some (before, after) := by
  induction before with
  | nil => simp [splitChars]
  | cons c before ih =>
    obtain ⟨differs, absent⟩ := List.ne_and_not_mem_of_not_mem_cons absent
    simp [splitChars, Ne.symm differs, ih absent]

/-- A text is split in front of its first separator. -/
theorem splitChars_eq (separator : Char) (chars : List Char) :
    splitChars separator chars =
      match chars.dropWhile (· != separator) with
      | [] => none
      | _ :: after => some (chars.takeWhile (· != separator), after) := by
  induction chars with
  | nil => rfl
  | cons c chars ih =>
    by_cases same : c = separator
    · simp [splitChars, same]
    · simp only [splitChars, same, ↓reduceIte, ih, List.dropWhile_cons, bne_iff_ne, ne_eq,
        not_false_eq_true, List.takeWhile_cons]
      cases chars.dropWhile (· != separator) <;> rfl

theorem splitChars_eq_none_iff {chars : List Char} : splitChars separator chars = none ↔ separator ∉ chars := by
  fun_induction splitChars separator chars with
  | case1 => simp
  | case2 rest => simp
  | case3 c rest differs ih => simp [ih, Ne.symm differs]

theorem splitChars_eq_some_iff {chars : List Char} :
    splitChars separator chars = some (before, after) ↔
      separator ∉ before ∧ chars = before ++ separator :: after := by
  constructor
  · intro split
    fun_induction splitChars separator chars generalizing before with
    | case1 => cases split
    | case2 rest =>
      cases split
      simp
    | case3 c rest differs ih =>
      obtain ⟨⟨front, back⟩, found, same⟩ := Option.map_eq_some_iff.mp split
      cases same
      obtain ⟨absent, rfl⟩ := ih found
      simp [absent, Ne.symm differs]
  · rintro ⟨absent, rfl⟩
    exact splitChars_append absent after

theorem splitOnce_eq_none_iff {text : String} : splitOnce separator text = none ↔ separator ∉ text.toList := by
  rw [splitOnce, Option.map_eq_none_iff, splitChars_eq_none_iff]

/-- A text is split into what stands in front of its first separator and what stands behind. -/
theorem splitOnce_eq_some_iff {text front back : String} :
    splitOnce separator text = some (front, back) ↔
      separator ∉ front.toList ∧ text = front ++ .singleton separator ++ back := by
  have shape : text = front ++ .singleton separator ++ back ↔
      text.toList = front.toList ++ separator :: back.toList := by
    rw [← String.toList_inj]
    simp
  rw [shape, ← splitChars_eq_some_iff, splitOnce, Option.map_eq_some_iff]
  constructor
  · rintro ⟨⟨before, after⟩, found, same⟩
    cases same
    rw [String.toList_ofList, String.toList_ofList]
    exact found
  · intro found
    exact ⟨_, found, by simp⟩

/-- The first separator of a text stands in one place. -/
theorem separator_in_place (absent : separator ∉ before) (absent' : separator ∉ before')
    (same : before ++ separator :: after = before' ++ separator :: after') :
    before = before' ∧ after = after' := by
  have split := splitChars_append absent after
  rw [same, splitChars_append absent'] at split
  simpa [eq_comm] using split

end BookCatalog.Text
