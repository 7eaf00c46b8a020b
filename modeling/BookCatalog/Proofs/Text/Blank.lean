import Mathlib.Data.List.DropRight
import BookCatalog.Text.Basic

/-!
Trimming a text. A trimmed text has no blanks left to trim, and nothing is left of a blank one only.
-/
namespace BookCatalog.Text

/-- A list keeps its front if a longer one does that begins with it. -/
theorem dropWhile_of_prefix {p : Char → Bool} {chars front : List Char} (begins : front <+: chars)
    (kept : chars.dropWhile p = chars) : front.dropWhile p = front := by
  cases front with
  | nil => rfl
  | cons first rest =>
    obtain ⟨behind, rfl⟩ := begins
    have stays : ¬ p first := List.dropWhile_eq_self_iff.mp kept (by simp)
    exact List.dropWhile_cons_of_neg stays

/-! ## Dropping from the end -/

theorem dropEndWhile_eq (p : Char → Bool) (chars : List Char) : dropEndWhile p chars = chars.rdropWhile p := rfl

theorem isPrefix_dropEndWhile (p : Char → Bool) (chars : List Char) : dropEndWhile p chars <+: chars :=
  List.rdropWhile_prefix p chars

/-- Dropping goes on to the front part only if nothing is left of what stands behind it. -/
theorem dropEndWhile_append (p : Char → Bool) (front back : List Char) :
    dropEndWhile p (front ++ back) =
      if dropEndWhile p back = [] then dropEndWhile p front else front ++ dropEndWhile p back := by
  simp only [dropEndWhile, List.reverse_append, List.dropWhile_append, List.reverse_eq_nil_iff, List.isEmpty_iff]
  split <;> simp

/-- Nothing is dropped from a text exactly if it ends in what is kept. -/
theorem dropEndWhile_eq_self_iff {p : Char → Bool} {chars : List Char} (nonempty : chars ≠ []) :
    dropEndWhile p chars = chars ↔ ∃ last, chars.getLast? = some last ∧ p last = false := by
  rw [dropEndWhile_eq, List.rdropWhile_eq_self_iff]
  simp [List.getLast?_eq_some_getLast nonempty, nonempty]

/-- What is left does not end in what is dropped. -/
theorem getLast?_dropEndWhile {p : Char → Bool} {chars : List Char} {last : Char}
    (found : (dropEndWhile p chars).getLast? = some last) : p last = false := by
  have nonempty : dropEndWhile p chars ≠ [] := by
    intro empty
    rw [empty] at found
    cases found
  obtain ⟨last', found', kept⟩ := (dropEndWhile_eq_self_iff nonempty).mp (List.rdropWhile_idempotent p chars)
  cases found.symm.trans found'
  exact kept

/-! ## Trimming -/

theorem toList_trim (text : String) :
    (trim text).toList = (text.toList.dropWhile isBlank).rdropWhile isBlank :=
  String.toList_ofList

theorem trim_trim (text : String) : trim (trim text) = trim text := by
  have front : (trim text).toList.dropWhile isBlank = (trim text).toList := by
    rw [toList_trim]
    exact dropWhile_of_prefix (List.rdropWhile_prefix ..) (List.dropWhile_idempotent ..)
  apply String.toList_inj.mp
  rw [toList_trim, front, toList_trim, List.rdropWhile_idempotent]

/-- Nothing is left of a text exactly if it is blank. -/
theorem trim_eq_empty_iff (text : String) : trim text = "" ↔ isBlankText text = true := by
  rw [← String.toList_eq_nil_iff, toList_trim, List.rdropWhile_eq_nil_iff, isBlankText, List.all_eq_true]
  constructor
  · intro rest c member
    rw [← List.takeWhile_append_dropWhile (p := isBlank) (l := text.toList)] at member
    rcases List.mem_append.mp member with front | behind
    · exact List.mem_takeWhile_imp front
    · exact rest c behind
  · intro blank c member
    exact blank c ((List.dropWhile_sublist isBlank).mem member)

/-- Blanks around a text make no difference to what is left of it. -/
theorem trim_padded {front back : String} (blank : isBlankText front = true) (blank' : isBlankText back = true)
    (text : String) : trim (front ++ text ++ back) = trim text := by
  have gone : back.toList.dropWhile isBlank = [] := List.dropWhile_eq_nil_iff.mpr (List.all_eq_true.mp blank')
  have gone' : dropEndWhile isBlank back.toList = [] := List.rdropWhile_eq_nil_iff.mpr (List.all_eq_true.mp blank')
  rw [trim, trim, String.toList_append, String.toList_append, List.append_assoc,
    List.dropWhile_append_of_pos (List.all_eq_true.mp blank), List.dropWhile_append]
  split
  · rename_i none
    rw [gone, List.isEmpty_iff.mp none]
  · rw [dropEndWhile_append, if_pos gone']

/-- A text without blanks stays as it is. -/
theorem trim_of_forall {text : String} (solid : ∀ c ∈ text.toList, isBlank c = false) : trim text = text := by
  apply String.toList_inj.mp
  have front : text.toList.dropWhile isBlank = text.toList := by
    rw [List.dropWhile_eq_self_iff]
    intro inside
    simp [solid _ (List.getElem_mem inside)]
  rw [toList_trim, front, List.rdropWhile_eq_self_iff]
  intro nonempty
  simp [solid _ (List.getLast_mem nonempty)]

end BookCatalog.Text
