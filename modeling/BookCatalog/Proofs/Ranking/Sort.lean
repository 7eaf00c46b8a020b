import Mathlib.Data.List.Perm.Basic
import BookCatalog.Ranking.Sort

/-!
What sorting by partition does to a list. The loop over a stack of work yields what the recursion
does, so everything else is shown of the recursion: it rearranges the list, puts lesser items first
and keeps any order that the items had among those that tie. Of the comparison only one thing is
needed: what is between two items, one less than the other, is more than the one or less than the
other.
-/
namespace BookCatalog.Ranking

open scoped List

variable {α β : Type} {less : α → α → Bool}

/-- What a piece of work comes to. -/
def Work.settled (less : α → α → Bool) : Work α → List α
  | .sort items => sortRecursively less items
  | .emit item => [item]

theorem sortRecursively_cons (pivot : α) (rest : List α) :
    sortRecursively less (pivot :: rest) =
      sortRecursively less (rest.filter (less · pivot)) ++
        pivot :: sortRecursively less (rest.filter (!less · pivot)) := by
  rw [sortRecursively]

/-- Induction along the recursion of the sort: the items before the pivot, and those behind it. -/
@[elab_as_elim]
theorem partition_induction (less : α → α → Bool) {motive : List α → Prop} (nil : motive [])
    (cons : ∀ pivot rest, motive (rest.filter (less · pivot)) →
      motive (rest.filter (!less · pivot)) → motive (pivot :: rest)) :
    ∀ items, motive items
  | [] => nil
  | pivot :: rest =>
    cons pivot rest (partition_induction less nil cons _) (partition_induction less nil cons _)
termination_by items => items.length
decreasing_by all_goals exact Nat.lt_succ_of_le (List.length_filter_le ..)

/-- The loop adds to its output what its stack comes to, from the top down. -/
theorem runWork_eq (stack : List (Work α)) (output : Array α) :
    (runWork less stack output).toList = output.toList ++ stack.flatMap (Work.settled less) := by
  fun_induction runWork less stack output with
  | case1 output => simp
  | case2 output item stack ih => simp [ih, Work.settled]
  | case3 output stack ih => simp [ih, Work.settled, sortRecursively]
  | case4 output item stack ih => simp [ih, Work.settled, sortRecursively]
  | case5 output pivot next rest stack others ih =>
    simp [ih, others, Work.settled, sortRecursively_cons]

theorem partitionSort_eq (items : List α) : partitionSort less items = sortRecursively less items := by
  simp [partitionSort, runWork_eq, Work.settled]

theorem sortRecursively_perm (items : List α) : (sortRecursively less items).Perm items := by
  induction items using partition_induction less with
  | nil => simp [sortRecursively]
  | cons pivot rest before behind =>
    rw [sortRecursively_cons]
    calc
      _ ~ rest.filter (less · pivot) ++ pivot :: rest.filter (!less · pivot) :=
        before.append (behind.cons pivot)
      _ ~ pivot :: (rest.filter (less · pivot) ++ rest.filter (!less · pivot)) :=
        List.perm_middle
      _ ~ pivot :: rest := (List.filter_append_perm (less · pivot) rest).cons pivot

/-- Sorting looks at items through the comparison only. -/
theorem sortRecursively_map (view : β → α) (items : List β) :
    sortRecursively less (items.map view) =
      (sortRecursively (fun item other => less (view item) (view other)) items).map view := by
  induction items using partition_induction fun item other => less (view item) (view other) with
  | nil => simp [sortRecursively]
  | cons pivot rest before behind =>
    simp only [List.map_cons, sortRecursively_cons, List.map_append, List.filter_map, ← before,
      ← behind, Function.comp_def]

/-- One item comes before another: it is less, or they tie and it came before. -/
def Precedes (less : α → α → Bool) (earlier : α → α → Prop) (item other : α) : Prop :=
  less item other = true ∨ less other item = false ∧ earlier item other

variable {earlier : α → α → Prop}

/-- **Sorting is stable.** Items that came in some order go out with the lesser before the greater
and those that tie in that order. -/
theorem sortRecursively_pairwise
    (between : ∀ low mid high, less low high = true → less low mid = true ∨ less mid high = true)
    {items : List α} (ordered : items.Pairwise earlier) :
    (sortRecursively less items).Pairwise (Precedes less earlier) := by
  induction items using partition_induction less with
  | nil => simp [sortRecursively]
  | cons pivot rest before behind =>
    obtain ⟨first, ordered⟩ := List.pairwise_cons.mp ordered
    have below : ∀ item ∈ sortRecursively less (rest.filter (less · pivot)), less item pivot = true := by
      intro item member
      simpa using (List.mem_filter.mp ((sortRecursively_perm _).mem_iff.mp member)).2
    have above : ∀ item ∈ sortRecursively less (rest.filter (!less · pivot)),
        item ∈ rest ∧ less item pivot = false := by
      intro item member
      simpa using List.mem_filter.mp ((sortRecursively_perm _).mem_iff.mp member)
    rw [sortRecursively_cons]
    refine List.pairwise_append.mpr ⟨before (ordered.filter _), ?_, ?_⟩
    · refine List.pairwise_cons.mpr ⟨fun item member => ?_, behind (ordered.filter _)⟩
      exact .inr ⟨(above item member).2, first item (above item member).1⟩
    · intro item low other member
      rcases List.mem_cons.mp member with rfl | high
      · exact .inl (below item low)
      · refine .inl ((between item other pivot (below item low)).resolve_right ?_)
        simp [(above other high).2]

end BookCatalog.Ranking
