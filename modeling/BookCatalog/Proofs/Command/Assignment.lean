import BookCatalog.Command.Input
import BookCatalog.Proofs.Record.Vocabulary

/-!
Which assignments make up a record. Each must name an attribute of the kind in front of its first equals
sign, and the record then has the attributes named and no others.
-/
namespace BookCatalog

open Json

variable {kind : Kind} {record grown : Record} {fields : Fields} {key other : String} {value : Json}

namespace Command

/-- What an assignment names: the text before its first equals sign, without the blanks around it. -/
def Names (assignment key : String) : Prop :=
  ∃ left value, Text.splitOnce '=' assignment = some (left, value) ∧ Text.trim left = key

/-- An assignment for records of a kind names one of their attributes. -/
def IsAssignment (kind : Kind) (assignment : String) : Prop :=
  ∃ key, Names assignment key ∧ key ∈ kind.attributes

variable {assignment : String} {assignments : List String}

theorem Names.unique (names : Names assignment key) (names' : Names assignment other) : key = other := by
  obtain ⟨left, value, split, rfl⟩ := names
  obtain ⟨left', value', split', rfl⟩ := names'
  cases split.symm.trans split'
  rfl

/-- What an assignment makes of a record has its attribute besides those that were there. -/
theorem assign_ok (done : assign record assignment = .ok grown) :
    IsAssignment record.kind assignment ∧ grown.kind = record.kind ∧
      ∀ key, key ∈ grown.attributes.keys ↔ Names assignment key ∨ key ∈ record.attributes.keys := by
  unfold assign at done
  split at done
  · cases done
  · rename_i left value split
    have names : Names assignment (Text.trim left) := ⟨left, value, split, rfl⟩
    obtain ⟨known, rfl⟩ := Record.set_eq_ok_iff.mp (mapError_eq_ok_iff.mp done)
    refine ⟨⟨_, names, known⟩, rfl, fun key => ?_⟩
    rw [Fields.mem_keys_insert]
    exact or_congr_left ⟨fun same => same ▸ names, fun names' => names'.unique names⟩

theorem exists_assign (valid : IsAssignment record.kind assignment) :
    ∃ grown, assign record assignment = .ok grown := by
  obtain ⟨key, ⟨left, value, split, rfl⟩, known⟩ := valid
  obtain ⟨grown, done⟩ : ∃ grown, record.set (Text.trim left) (.text value) = .ok grown :=
    ⟨_, Record.set_eq_ok_iff.mpr ⟨known, rfl⟩⟩
  refine ⟨grown, ?_⟩
  simp only [assign, split]
  exact mapError_eq_ok_iff.mpr done

/-- What assignments make of a record, one after the other. -/
theorem foldlM_assign_ok (done : assignments.foldlM assign record = .ok grown) :
    (∀ assignment ∈ assignments, IsAssignment record.kind assignment) ∧ grown.kind = record.kind ∧
      ∀ key, key ∈ grown.attributes.keys ↔
        (∃ assignment ∈ assignments, Names assignment key) ∨ key ∈ record.attributes.keys := by
  induction assignments generalizing record with
  | nil =>
    cases done
    simp
  | cons assignment assignments ih =>
    rw [List.foldlM_cons] at done
    obtain ⟨next, first, rest⟩ := bind_ok done
    obtain ⟨valid, same, keys⟩ := assign_ok first
    obtain ⟨valid', same', keys'⟩ := ih rest
    rw [same] at valid' same'
    refine ⟨List.forall_mem_cons.mpr ⟨valid, valid'⟩, same', fun key => ?_⟩
    rw [keys', keys]
    simp only [List.mem_cons, exists_eq_or_imp, or_assoc]
    exact or_left_comm

/-- A list of assignments makes up a record exactly if each of them is one for records of the kind. -/
theorem exists_readAssignments_iff :
    (∃ record, readAssignments kind assignments = .ok record) ↔
      ∀ assignment ∈ assignments, IsAssignment kind assignment := by
  constructor
  · rintro ⟨record, done⟩
    exact (foldlM_assign_ok done).1
  · unfold readAssignments
    generalize start : Record.empty kind = record
    have same : record.kind = kind := by
      rw [← start]
      rfl
    clear start
    intro valid
    induction assignments generalizing record with
    | nil => exact ⟨record, rfl⟩
    | cons assignment assignments ih =>
      obtain ⟨first, others⟩ := List.forall_mem_cons.mp valid
      obtain ⟨grown, done⟩ := exists_assign (same ▸ first)
      rw [List.foldlM_cons, done]
      exact ih grown ((assign_ok done).2.1.trans same) others

theorem kind_of_readAssignments (done : readAssignments kind assignments = .ok record) :
    record.kind = kind :=
  (foldlM_assign_ok done).2.1

theorem mem_keys_of_readAssignments (done : readAssignments kind assignments = .ok record) :
    key ∈ record.attributes.keys ↔ ∃ assignment ∈ assignments, Names assignment key := by
  rw [(foldlM_assign_ok done).2.2]
  simp [Record.empty, Fields.keys]

/-- Assignments give a record an identifier if one of them names the attribute for it. -/
theorem isSome_identifier?_of_readAssignments (done : readAssignments kind assignments = .ok record) :
    record.identifier?.isSome = true ↔
      ∃ assignment ∈ assignments, Names assignment (Field.identifier kind).key := by
  rw [Record.isSome_identifier?_iff, kind_of_readAssignments done, mem_keys_of_readAssignments done]

end Command
end BookCatalog
