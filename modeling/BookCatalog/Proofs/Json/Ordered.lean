import BookCatalog.Proofs.Json.Document

/-!
Every document that is read has the keys of its objects in order, however they stood in the text. Objects
are built by storing one field after the other, and that keeps the order; arrays and objects only put
together what was read before.
-/
namespace BookCatalog.Json

open Read

/-- A value whose objects, at any depth, have their keys in order. -/
inductive IsOrdered : Json → Prop where
  | null : IsOrdered .null
  | bool (flag : Bool) : IsOrdered (.bool flag)
  | number (n : Number) : IsOrdered (.number n)
  | text (s : String) : IsOrdered (.text s)
  | array {items : List Json} (each : ∀ item ∈ items, IsOrdered item) : IsOrdered (.array items)
  | object {fields : Fields} (ordered : fields.Ordered) (each : ∀ field ∈ fields, IsOrdered field.2) :
    IsOrdered (.object fields)

theorem IsOrdered.fields {fields : Fields} (whole : IsOrdered (.object fields)) : fields.Ordered := by
  cases whole with
  | object ordered each => exact ordered

variable {α : Type} {depth bound : Nat} {chars rest : List Char} {json : Json}

/-- What holds of every part that can be read holds of all parts between two brackets. -/
theorem parts_forall {part : Reader α} {close : Char} {holds : α → Prop}
    (each : ∀ {chars item rest}, part chars = some (item, rest) → holds item) {list : List α}
    (read : parts part close bound chars = some (list, rest)) : ∀ item ∈ list, holds item := by
  induction bound generalizing chars list rest with
  | zero => cases read
  | succ bound ih =>
    rw [parts] at read
    obtain ⟨⟨first, behind⟩, begun, read⟩ := Option.bind_eq_some_iff.mp read
    dsimp only at read
    split at read
    · cases read
    · split at read
      · obtain ⟨⟨more, left⟩, followed, read⟩ := Option.bind_eq_some_iff.mp read
        cases read
        exact List.forall_mem_cons.mpr ⟨each begun, ih followed⟩
      · split at read
        · cases read
          exact List.forall_mem_singleton.mpr (each begun)
        · cases read

theorem field_isOrdered {value : Reader Json}
    (each : ∀ {chars json rest}, value chars = some (json, rest) → json.IsOrdered)
    {named : String × Json} (read : field value chars = some (named, rest)) : named.2.IsOrdered := by
  unfold field at read
  split at read
  · obtain ⟨⟨key, behind⟩, -, read⟩ := Option.bind_eq_some_iff.mp read
    dsimp only at read
    split at read
    · obtain ⟨⟨held, left⟩, found, read⟩ := Option.bind_eq_some_iff.mp read
      cases read
      exact each found
    · cases read
  · cases read

/-- A value is in order if those between its brackets, which are read with a smaller budget, are. -/
theorem value_isOrdered (read : Read.value depth chars = some (json, rest)) : json.IsOrdered := by
  induction depth using Nat.strongRecOn generalizing chars json rest with
  | _ depth ih =>
    rw [Read.value.eq_def] at read
    split at read
    case h_1 | h_2 | h_3 =>
      cases read
      constructor
    case h_4 =>
      obtain ⟨⟨found, behind⟩, -, read⟩ := Option.map_eq_some_iff.mp read
      cases read
      exact .text found
    case h_5 | h_7 => cases read
    case h_6 smaller rest =>
      have inner : ∀ {chars json rest}, Read.value smaller (skipSpace chars) = some (json, rest) →
          json.IsOrdered := ih smaller (Nat.lt_succ_self smaller)
      split at read
      · cases read
        exact .array (by simp)
      · obtain ⟨⟨found, behind⟩, listed, read⟩ := Option.map_eq_some_iff.mp read
        cases read
        rw [items_eq_parts] at listed
        exact .array (parts_forall inner listed)
    case h_8 smaller rest =>
      have inner : ∀ {chars json rest}, Read.value smaller chars = some (json, rest) →
          json.IsOrdered := ih smaller (Nat.lt_succ_self smaller)
      split at read
      · cases read
        exact .object .nil (by simp)
      · obtain ⟨⟨found, behind⟩, listed, read⟩ := Option.map_eq_some_iff.mp read
        cases read
        rw [fields_eq_parts] at listed
        have each : ∀ field ∈ found, field.2.IsOrdered := parts_forall (field_isOrdered inner) listed
        obtain ⟨ordered, among⟩ := Fields.ofAssignments_ordered found
        exact .object ordered fun field member => each field (among field member)
    case h_9 =>
      obtain ⟨⟨found, behind⟩, -, read⟩ := Option.map_eq_some_iff.mp read
      cases read
      exact .number found

theorem isOrdered_of_read? {text : String} (read : read? text = some json) : json.IsOrdered := by
  unfold read? at read
  split at read
  · rename_i found behind whole
    split at read
    · cases read
      exact value_isOrdered whole
    · cases read
  · cases read

end BookCatalog.Json
