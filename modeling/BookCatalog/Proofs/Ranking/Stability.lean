import BookCatalog.Proofs.Ranking.Order
import BookCatalog.Proofs.Ranking.Sort

/-!
Sorting by partition is the stable sort. A list has only one rearrangement that is in order and
keeps those that tie as they came, whichever way it is found; and partitioning finds it, since what
is less than the pivot is less than everything else and no item ties with one on the other side.
-/
namespace BookCatalog.Ranking

variable {α : Type}

/-- Two items tie: neither is less than the other. -/
def ties (less : α → α → Bool) (item other : α) : Bool := !less item other && !less other item

/-- A list is another one sorted: the same items, of which no later one is less than an earlier one,
and among those that tie with an item the order is as it was. -/
structure IsStableSort (less : α → α → Bool) (items sorted : List α) : Prop where
  perm : sorted.Perm items
  ascending : sorted.Pairwise fun item later => less later item = false
  stable : ∀ item, sorted.filter (ties less item) = items.filter (ties less item)

/-- A strict order in which to tie is to be on one level. -/
structure IsWeakOrder (less : α → α → Bool) : Prop where
  asymm : ∀ item other, less item other = true → less other item = false
  between : ∀ low mid high, less low high = true → less low mid = true ∨ less mid high = true

variable {less : α → α → Bool} {items sorted other : List α} {pivot : α}

theorem IsWeakOrder.irrefl (order : IsWeakOrder less) (item : α) : less item item = false := by
  cases itself : less item item with
  | false => rfl
  | true => exact itself.symm.trans (order.asymm item item itself)

theorem ties_eq_true_iff {item other : α} :
    ties less item other = true ↔ less item other = false ∧ less other item = false := by
  simp [ties]

theorem IsWeakOrder.ties_self (order : IsWeakOrder less) (item : α) : ties less item item = true :=
  ties_eq_true_iff.mpr ⟨order.irrefl item, order.irrefl item⟩

/-- Of the items of a kind, all that tie with an item are kept or none, if they are of its kind. -/
theorem filter_ties_of_alike {p : α → Bool} {item : α}
    (alike : ∀ tied, ties less item tied = true → p tied = p item) :
    (items.filter p).filter (ties less item) =
      if p item then items.filter (ties less item) else [] := by
  have both : ∀ tied, (ties less item tied && p tied) = (p item && ties less item tied) := by
    intro tied
    cases tie : ties less item tied with
    | false => simp
    | true => simp [alike tied tie]
  rw [List.filter_filter, List.filter_congr fun tied _ => both tied]
  cases p item <;> simp

/-- The first of a list in order is not above any item of the list. -/
theorem not_less_head (order : IsWeakOrder less)
    (ascending : (pivot :: items).Pairwise fun item later => less later item = false)
    {item : α} (member : item ∈ pivot :: items) : less item pivot = false := by
  rcases List.mem_cons.mp member with rfl | behind
  · exact order.irrefl item
  · exact List.rel_of_pairwise_cons ascending behind

/-- Lists that agree on what ties with any one item have the same items. -/
theorem mem_iff_of_ties (order : IsWeakOrder less)
    (agree : ∀ item, items.filter (ties less item) = other.filter (ties less item)) (item : α) :
    item ∈ items ↔ item ∈ other := by
  have same : item ∈ items.filter (ties less item) ↔ item ∈ other.filter (ties less item) := by
    rw [agree]
  simpa [order.ties_self] using same

/-- If they are in order too, they are the same list. Their first items are in each other's list, so
these tie, and each is the first of those that do. -/
theorem eq_of_ties (order : IsWeakOrder less)
    (ascending : items.Pairwise fun item later => less later item = false)
    (ascending' : other.Pairwise fun item later => less later item = false)
    (agree : ∀ item, items.filter (ties less item) = other.filter (ties less item)) :
    items = other := by
  have shared := mem_iff_of_ties order agree
  induction items generalizing other with
  | nil =>
    refine (List.eq_nil_iff_forall_not_mem.mpr fun item member => ?_).symm
    exact List.not_mem_nil ((shared item).mpr member)
  | cons first rest ih =>
    cases other with
    | nil => exact absurd ((shared first).mp List.mem_cons_self) List.not_mem_nil
    | cons first' rest' =>
      have tie : ties less first first' = true := by
        apply ties_eq_true_iff.mpr
        constructor
        · exact not_less_head order ascending' ((shared first).mp List.mem_cons_self)
        · exact not_less_head order ascending ((shared first').mpr List.mem_cons_self)
      obtain rfl : first = first' := by
        have heads := agree first
        rw [List.filter_cons_of_pos (order.ties_self first), List.filter_cons_of_pos tie] at heads
        exact (List.cons.inj heads).1
      have tails : ∀ item, rest.filter (ties less item) = rest'.filter (ties less item) := by
        intro item
        have all := agree item
        cases tied : ties less item first <;> simpa [List.filter_cons, tied] using all
      rw [ih ascending.of_cons ascending'.of_cons tails (mem_iff_of_ties order tails)]

theorem IsStableSort.unique (order : IsWeakOrder less) (stable : IsStableSort less items sorted)
    (stable' : IsStableSort less items other) : sorted = other :=
  eq_of_ties order stable.ascending stable'.ascending fun item =>
    (stable.stable item).trans (stable'.stable item).symm

namespace IsStableSort

/-- An item goes before those of which none is less. -/
theorem cons (stable : IsStableSort less items sorted)
    (least : ∀ item ∈ items, less item pivot = false) :
    IsStableSort less (pivot :: items) (pivot :: sorted) where
  perm := stable.perm.cons pivot
  ascending := List.pairwise_cons.mpr
    ⟨fun item member => least item (stable.perm.mem_iff.mp member), stable.ascending⟩
  stable item := by simp only [List.filter_cons, stable.stable item]

/-- Where all of one kind are less than all others, the two kinds are sorted each by itself. -/
theorem append (order : IsWeakOrder less) {p : α → Bool}
    (apart : ∀ item other, p item = true → p other = false → less item other = true)
    (front : IsStableSort less (items.filter p) sorted)
    (back : IsStableSort less (items.filter (!p ·)) other) :
    IsStableSort less items (sorted ++ other) where
  perm := (front.perm.append back.perm).trans (List.filter_append_perm p items)
  ascending := by
    refine List.pairwise_append.mpr ⟨front.ascending, back.ascending, fun item lower later upper => ?_⟩
    have isLow := (List.mem_filter.mp (front.perm.mem_iff.mp lower)).2
    have isHigh := (List.mem_filter.mp (back.perm.mem_iff.mp upper)).2
    exact order.asymm item later (apart item later isLow (by simpa using isHigh))
  stable item := by
    have alike : ∀ tied, ties less item tied = true → p tied = p item := by
      intro tied tie
      obtain ⟨notBelow, notAbove⟩ := ties_eq_true_iff.mp tie
      cases kind : p item <;> cases kind' : p tied
      case false.true => exact absurd (apart tied item kind' kind) (by simp [notAbove])
      case true.false => exact absurd (apart item tied kind kind') (by simp [notBelow])
      all_goals rfl
    rw [List.filter_append, front.stable, back.stable, filter_ties_of_alike alike,
      filter_ties_of_alike fun tied tie => congrArg (!·) (alike tied tie)]
    cases p item <;> simp

/-- A list in order stays as it is. -/
theorem of_ascending (ascending : items.Pairwise fun item later => less later item = false) :
    IsStableSort less items items where
  perm := .refl _
  ascending := ascending
  stable _ := rfl

end IsStableSort

theorem sortRecursively_isStableSort (order : IsWeakOrder less) (items : List α) :
    IsStableSort less items (sortRecursively less items) := by
  induction items using partition_induction less with
  | nil =>
    rw [sortRecursively]
    exact .of_ascending .nil
  | cons pivot rest before behind =>
    rw [sortRecursively_cons]
    refine .append order (p := (less · pivot)) (fun item other below above => ?_) ?_ ?_
    · exact (order.between item other pivot below).resolve_right (by simp [above])
    · rwa [List.filter_cons_of_neg (by simp [order.irrefl])]
    · rw [List.filter_cons_of_pos (by simp [order.irrefl])]
      refine behind.cons fun item member => ?_
      simpa using (List.mem_filter.mp member).2

/-- The stable sort is the one by partition and no other list. -/
theorem isStableSort_iff (order : IsWeakOrder less) :
    IsStableSort less items sorted ↔ sorted = partitionSort less items := by
  rw [partitionSort_eq]
  constructor
  · intro stable
    exact stable.unique order (sortRecursively_isStableSort order items)
  · rintro rfl
    exact sortRecursively_isStableSort order items

/-- The comparison of items by their scores. -/
def byScore (score : α → Float) (item other : α) : Bool := isLess (score item) (score other)

theorem byScore_isWeakOrder (score : α → Float) : IsWeakOrder (byScore score) where
  asymm item other less := isLess_eq_false_iff.mpr (isLess_iff.mp less).le
  between low mid high less := by
    rcases lt_or_ge (standing (score low)) (standing (score mid)) with below | above
    · exact .inl (isLess_iff.mpr below)
    · exact .inr (isLess_iff.mpr (above.trans_lt (isLess_iff.mp less)))

/-- **Sorting by partition is the stable ascending sort** by scores, whatever these are. It yields
the one list that has the same items, none of them less than an earlier one, and those that tie in
the order in which they came. Items that score no number stand first, as they came. -/
theorem partitionSort_sorts_stably (score : α → Float) (items : List α) :
    (∀ sorted, IsStableSort (byScore score) items sorted ↔
        sorted = partitionSort (byScore score) items) ∧
      partitionSort (byScore score) items =
        items.filter (fun item => (score item).isNaN) ++
          partitionSort (byScore score) (items.filter fun item => !(score item).isNaN) := by
  have order := byScore_isWeakOrder score
  refine ⟨fun sorted => isStableSort_iff order, ((isStableSort_iff order).mp ?_).symm⟩
  refine .append order (fun item other nan number => ?_) (.of_ascending ?_) ((isStableSort_iff order).mpr rfl)
  · exact isLess_iff.mpr (standing_lt_of_isNaN nan number)
  · refine List.pairwise_of_forall_mem_list fun item member later member' => ?_
    have nan := (List.mem_filter.mp member).2
    have nan' := (List.mem_filter.mp member').2
    exact isLess_eq_false_iff.mpr (standing_eq_of_isNaN nan nan').le

end BookCatalog.Ranking
