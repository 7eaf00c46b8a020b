import Mathlib.Data.List.Forall2

/-!
Computations that may fail. A sequence of steps succeeds through every one of them, and reading a list
succeeds exactly if each item can be read.
-/
namespace BookCatalog

variable {α β ε : Type}

/-- What comes out of a sequence came out of its second step, which had the result of the first. -/
theorem bind_ok {first : Except ε α} {next : α → Except ε β} {result : β}
    (done : first >>= next = .ok result) : ∃ value, first = .ok value ∧ next value = .ok result := by
  cases first with
  | error error => cases done
  | ok value => exact ⟨value, rfl, done⟩

/-- What fails has no result. -/
theorem not_exists_ok {given : Except ε α} {error : ε} (failed : given = .error error) :
    ¬ ∃ value, given = .ok value := by
  rintro ⟨value, done⟩
  rw [failed] at done
  cases done

/-- Another wording of its error leaves a success as it is. -/
theorem mapError_eq_ok_iff {ε' : Type} {reword : ε → ε'} {given : Except ε α} {value : α} :
    given.mapError reword = .ok value ↔ given = .ok value := by
  cases given with
  | error error =>
    constructor <;> (intro done; cases done)
  | ok value' =>
    constructor <;> (intro done; cases done; rfl)

theorem mapError_eq_error_iff {ε' : Type} {reword : ε → ε'} {given : Except ε α} {error : ε'} :
    given.mapError reword = .error error ↔ ∃ cause, given = .error cause ∧ reword cause = error := by
  cases given with
  | error cause => simp [Except.mapError]
  | ok value => simp [Except.mapError]

variable {read : α → Except ε β} {items : List α}

theorem mapM_eq_ok_iff {values : List β} :
    items.mapM read = .ok values ↔ List.Forall₂ (fun item value => read item = .ok value) items values := by
  induction items generalizing values with
  | nil =>
    rw [List.mapM_nil, List.forall₂_nil_left_iff]
    exact ⟨fun same => (Except.ok.inj same).symm, fun same => congrArg Except.ok same.symm⟩
  | cons item items ih =>
    rw [List.mapM_cons, List.forall₂_cons_left_iff]
    constructor
    · intro done
      obtain ⟨value, first, done⟩ := bind_ok done
      obtain ⟨others, rest, done⟩ := bind_ok done
      cases done
      exact ⟨value, others, first, ih.mp rest, rfl⟩
    · rintro ⟨value, others, first, rest, rfl⟩
      rw [first, ih.mpr rest]
      rfl

/-- If reading undoes writing, what is read from a list is what the list was written from. -/
theorem mapM_eq_ok_iff_map {write : β → α} {valid : β → Prop} {values : List β}
    (inverse : ∀ item value, read item = .ok value ↔ item = write value ∧ valid value) :
    items.mapM read = .ok values ↔ values.map write = items ∧ ∀ value ∈ values, valid value := by
  simp only [mapM_eq_ok_iff, inverse]
  induction values generalizing items with
  | nil => simp [eq_comm]
  | cons value values ih =>
    simp only [List.forall₂_cons_right_iff, ih, List.map_cons, List.forall_mem_cons]
    constructor
    · rintro ⟨_, _, ⟨rfl, first⟩, ⟨rfl, others⟩, rfl⟩
      exact ⟨rfl, first, others⟩
    · rintro ⟨rfl, first, others⟩
      exact ⟨_, _, ⟨rfl, first⟩, ⟨rfl, others⟩, rfl⟩

/-- Reading a list stops at the first item that cannot be read, and fails as that item does. -/
theorem mapM_eq_error_iff {error : ε} :
    items.mapM read = .error error ↔ ∃ before item behind, items = before ++ item :: behind ∧
      (∀ earlier ∈ before, ∃ value, read earlier = .ok value) ∧ read item = .error error := by
  constructor
  · intro failed
    induction items with
    | nil => cases failed
    | cons item items ih =>
      rw [List.mapM_cons] at failed
      cases first : read item with
      | error other =>
        rw [first] at failed
        cases failed
        exact ⟨[], item, items, rfl, by simp, first⟩
      | ok value =>
        rw [first] at failed
        cases others : items.mapM read with
        | error other =>
          simp only [others] at failed
          cases failed
          obtain ⟨before, wrong, behind, rfl, right, found⟩ := ih others
          exact ⟨item :: before, wrong, behind, rfl, List.forall_mem_cons.mpr ⟨⟨value, first⟩, right⟩, found⟩
        | ok values =>
          simp only [others] at failed
          cases failed
  · rintro ⟨before, item, behind, rfl, right, wrong⟩
    induction before with
    | nil =>
      rw [List.nil_append, List.mapM_cons, wrong]
      rfl
    | cons first before ih =>
      obtain ⟨⟨value, found⟩, right⟩ := List.forall_mem_cons.mp right
      rw [List.cons_append, List.mapM_cons, found]
      simp only [ih right]
      rfl

/-- If reading a list fails, it fails because of one of the items. -/
theorem mapM_error {error : ε} (failed : items.mapM read = .error error) :
    ∃ item ∈ items, read item = .error error := by
  obtain ⟨before, item, behind, rfl, -, wrong⟩ := mapM_eq_error_iff.mp failed
  exact ⟨item, by simp, wrong⟩

/-- What comes out of reading a list was read from one of the items. -/
theorem exists_of_mem_mapM {values : List β} (done : items.mapM read = .ok values) :
    ∀ value ∈ values, ∃ item ∈ items, read item = .ok value := by
  have each := mapM_eq_ok_iff.mp done
  clear done
  induction each with
  | nil => simp
  | cons first rest ih =>
    refine List.forall_mem_cons.mpr ⟨⟨_, List.mem_cons_self, first⟩, fun value member => ?_⟩
    obtain ⟨item, among, came⟩ := ih value member
    exact ⟨item, List.mem_cons_of_mem _ among, came⟩

theorem exists_mapM_iff :
    (∃ values, items.mapM read = .ok values) ↔ ∀ item ∈ items, ∃ value, read item = .ok value := by
  simp only [mapM_eq_ok_iff]
  induction items with
  | nil => simp
  | cons item items ih => simp [List.forall₂_cons_left_iff, ← ih]

end BookCatalog
