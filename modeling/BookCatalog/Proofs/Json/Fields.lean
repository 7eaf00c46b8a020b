import Mathlib.Data.List.Nodup
import BookCatalog.Json.Basic

/-!
Objects by their keys. An object whose keys are in order has each of them once, so that looking a key up
finds all that is stored under it. Storing changes what is found under one key, and keeps the order.
-/
namespace BookCatalog.Json

instance (fields : Fields) : Decidable fields.Ordered :=
  inferInstanceAs (Decidable (fields.keys.Pairwise (· < ·)))

namespace Fields

variable {fields : Fields} {key other : String} {value : Json}

@[simp] theorem keys_nil : keys [] = [] := rfl

@[simp] theorem keys_cons {field : String × Json} : keys (field :: fields) = field.1 :: fields.keys := rfl

theorem ordered_cons {field : String × Json} :
    Ordered (field :: fields) ↔ (∀ other ∈ fields.keys, field.1 < other) ∧ fields.Ordered :=
  List.pairwise_cons

/-! ## Looking up -/

theorem isSome_get?_iff : (fields.get? key).isSome = true ↔ key ∈ fields.keys := by
  induction fields with
  | nil => simp [get?]
  | cons field rest ih =>
    obtain ⟨held, old⟩ := field
    unfold get? at ih ⊢
    by_cases same : key = held
    · simp [same]
    · have apart : (key == held) = false := by simpa using same
      simp only [List.lookup_cons, apart, ih, keys_cons, List.mem_cons, same, false_or]

theorem get?_cons {held : String} {old : Json} :
    get? ((held, old) :: fields) key = if key = held then some old else fields.get? key := by
  by_cases same : key = held
  · simp [get?, same]
  · have apart : (key == held) = false := by simpa using same
    simp only [get?, List.lookup_cons, apart, same, ↓reduceIte]

/-- In an object that is in order, what a key is found to hold is what is stored under it. -/
theorem Ordered.get?_eq_some_iff (ordered : fields.Ordered) :
    fields.get? key = some value ↔ (key, value) ∈ fields := by
  induction fields with
  | nil => simp [get?]
  | cons field rest ih =>
    obtain ⟨held, old⟩ := field
    obtain ⟨least, ordered⟩ := ordered_cons.mp ordered
    rw [get?_cons]
    by_cases same : key = held
    · subst same
      have once : (key, value) ∉ rest := by
        intro member
        exact String.lt_irrefl _ (least key (List.mem_map_of_mem member))
      simp [once, eq_comm]
    · simp [same, ih ordered]

/-- An object that is in order has each key once. -/
theorem Ordered.nodup_keys (ordered : fields.Ordered) : fields.keys.Nodup := by
  refine List.Pairwise.imp ?_ ordered
  rintro first _ less rfl
  exact String.lt_irrefl _ less

theorem Ordered.nodup (ordered : fields.Ordered) : fields.Nodup :=
  ordered.nodup_keys.of_map Prod.fst

/-- Objects that are in order are the same if the same is found in them. -/
theorem Ordered.ext {others : Fields} (ordered : fields.Ordered) (ordered' : others.Ordered)
    (same : ∀ key, fields.get? key = others.get? key) : fields = others := by
  have rearranged : fields.Perm others := by
    apply (List.perm_ext_iff_of_nodup ordered.nodup ordered'.nodup).mpr
    rintro ⟨key, value⟩
    rw [← ordered.get?_eq_some_iff, ← ordered'.get?_eq_some_iff, same]
  refine rearranged.eq_of_pairwise (fun field other _ _ less less' => ?_) (List.pairwise_map.mp ordered)
    (List.pairwise_map.mp ordered')
  exact absurd less' (String.lt_asymm less)

/-- Objects that have the same keys, and under one of them the same but for what a function tells apart, are not
told apart there by looking the key up. -/
theorem map_get?_of_forall₂ {β : Type} (f : Json → β) {others : Fields}
    (same : List.Forall₂ (fun field other => field.1 = other.1 ∧ (field.1 = key → f field.2 = f other.2))
      fields others) : (fields.get? key).map f = (others.get? key).map f := by
  induction same with
  | nil => rfl
  | @cons field other _ _ alike _ ih =>
    obtain ⟨keys, values⟩ := alike
    rw [get?_cons, get?_cons, ← keys]
    split
    · rename_i own
      exact congrArg some (values own.symm)
    · exact ih

/-! ## Storing -/

theorem mem_keys_insert : key ∈ (fields.insert other value).keys ↔ key = other ∨ key ∈ fields.keys := by
  induction fields with
  | nil => simp [insert]
  | cons field rest ih =>
    obtain ⟨held, old⟩ := field
    unfold insert
    split
    · rename_i same
      simp [same]
    · split
      · simp
      · simp only [keys_cons, List.mem_cons, ih]
        exact or_left_comm

/-- What is stored is found under its key, and all else is found as before. -/
theorem get?_insert : (fields.insert key value).get? other =
    if other = key then some value else fields.get? other := by
  induction fields with
  | nil => simp [insert, get?_cons]
  | cons field rest ih =>
    obtain ⟨held, old⟩ := field
    unfold insert
    split
    · rename_i own
      subst own
      by_cases same : other = key <;> simp [get?_cons, same]
    · rename_i own
      split
      · exact get?_cons
      · by_cases same : other = key
        · subst same
          simp [get?_cons, own, ih]
        · simp [get?_cons, same, ih]

/-- Storing keeps the keys in order. -/
theorem Ordered.insert (ordered : fields.Ordered) (key : String) (value : Json) :
    (fields.insert key value).Ordered := by
  induction fields with
  | nil => simp [Fields.insert, Ordered]
  | cons field rest ih =>
    obtain ⟨held, old⟩ := field
    obtain ⟨least, below⟩ := ordered_cons.mp ordered
    unfold Fields.insert
    split
    · rename_i same
      subst same
      exact ordered_cons.mpr ⟨least, below⟩
    · rename_i differs
      split
      · rename_i before
        refine ordered_cons.mpr ⟨fun other member => ?_, ordered⟩
        rcases List.mem_cons.mp member with rfl | behind
        · exact before
        · exact String.lt_trans before (least other behind)
      · rename_i behind
        refine ordered_cons.mpr ⟨fun other member => ?_, ih below⟩
        rcases mem_keys_insert.mp member with rfl | among
        · exact Std.lt_of_le_of_ne (String.not_lt.mp behind) (Ne.symm differs)
        · exact least other among

theorem mem_insert {field : String × Json} (member : field ∈ fields.insert key value) :
    field = (key, value) ∨ field ∈ fields := by
  induction fields with
  | nil => simpa [insert] using member
  | cons first rest ih =>
    obtain ⟨held, old⟩ := first
    unfold insert at member
    split at member
    · rcases List.mem_cons.mp member with new | behind
      · exact .inl new
      · exact .inr (List.mem_cons_of_mem _ behind)
    · split at member
      · exact List.mem_cons.mp member
      · rcases List.mem_cons.mp member with first | among
        · exact .inr (first ▸ List.mem_cons_self)
        · exact (ih among).imp_right (List.mem_cons_of_mem _)

/-- Whatever is assigned, the object that comes of it has its keys in order, and holds nothing else. -/
theorem ofAssignments_ordered (assignments : List (String × Json)) :
    (ofAssignments assignments).Ordered ∧ ∀ field ∈ ofAssignments assignments, field ∈ assignments := by
  have stored : ∀ (more : List (String × Json)) (start : Fields), start.Ordered →
      (∀ field ∈ start, field ∈ assignments) → (∀ field ∈ more, field ∈ assignments) →
      let whole := more.foldl (fun fields assignment => fields.insert assignment.1 assignment.2) start
      whole.Ordered ∧ ∀ field ∈ whole, field ∈ assignments := by
    intro more
    induction more with
    | nil => exact fun start ordered held _ => ⟨ordered, held⟩
    | cons assignment more ih =>
      intro start ordered held given
      obtain ⟨first, given⟩ := List.forall_mem_cons.mp given
      refine ih _ (ordered.insert _ _) (fun field member => ?_) given
      rcases mem_insert member with rfl | among
      · exact first
      · exact held field among
  exact stored assignments [] .nil (by simp) fun _ given => given

/-- A key behind all others is stored at the end. -/
theorem insert_last (value : Json) (last : ∀ other ∈ fields.keys, other < key) :
    fields.insert key value = fields ++ [(key, value)] := by
  induction fields with
  | nil => rfl
  | cons field fields ih =>
    obtain ⟨other, held⟩ := field
    have before : other < key := last other (by simp)
    have differs : key ≠ other := by
      rintro rfl
      exact String.lt_irrefl _ before
    have rest := ih fun other member => last other (List.mem_cons_of_mem _ member)
    rw [insert, if_neg differs, if_neg (String.lt_asymm before), rest]
    rfl

/-- Fields that are in order stay as they are when they are stored one after the other. -/
theorem ofAssignments_of_ordered (ordered : fields.Ordered) : ofAssignments fields = fields := by
  have stored : ∀ (more front : Fields), Ordered (front ++ more) →
      more.foldl (fun fields (assignment : String × Json) =>
        fields.insert assignment.1 assignment.2) front = front ++ more := by
    intro more
    induction more with
    | nil => simp
    | cons field more ih =>
      intro front ordered
      have last : ∀ other ∈ keys front, other < field.1 := by
        intro other member
        rw [Ordered, keys, List.map_append, List.pairwise_append] at ordered
        exact ordered.2.2 other member field.1 (by simp)
      rw [List.foldl_cons, insert_last field.2 last, ih _ (by simpa using ordered)]
      simp
  exact stored fields [] ordered

end Fields
end BookCatalog.Json
