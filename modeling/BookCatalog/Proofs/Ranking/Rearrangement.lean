import BookCatalog.Ranking.Top
import BookCatalog.Proofs.Ranking.Stability

/-!
Rankings of rearranged lists. How the items of a list are split when it is sorted depends on their order, but
the standings of the sorted list do not: they are the standings of the items in order, and there is only one
such list. Where no two items tie, each standing belongs to one item, and the sorted lists are the same.
-/
namespace BookCatalog.Ranking

open scoped List

variable {α : Type} {score : α → Float} {items others : List α}

theorem partitionSort_isStableSort (score : α → Float) (items : List α) :
    IsStableSort (byScore score) items (partitionSort (byScore score) items) :=
  (isStableSort_iff (byScore_isWeakOrder score)).mpr rfl

theorem partitionSort_perm_of_perm (score : α → Float) (rearranged : others.Perm items) :
    (partitionSort (byScore score) others).Perm (partitionSort (byScore score) items) :=
  calc
    _ ~ others := (partitionSort_isStableSort score others).perm
    _ ~ items := rearranged
    _ ~ _ := (partitionSort_isStableSort score items).perm.symm

/-- The standings of a sorted list go upwards. -/
theorem standings_ascend (score : α → Float) (items : List α) :
    ((partitionSort (byScore score) items).map fun item => standing (score item)).Pairwise (· ≤ ·) := by
  rw [List.pairwise_map]
  exact (partitionSort_isStableSort score items).ascending.imp fun later => isLess_eq_false_iff.mp later

/-- They do not depend on the order that the list was in. -/
theorem standings_of_perm (rearranged : others.Perm items) :
    (partitionSort (byScore score) others).map (fun item => standing (score item)) =
      (partitionSort (byScore score) items).map fun item => standing (score item) :=
  ((partitionSort_perm_of_perm score rearranged).map _).eq_of_pairwise (fun _ _ _ _ => le_antisymm)
    (standings_ascend score others) (standings_ascend score items)

/-- Nor do the items, if each standing belongs to one of them. -/
theorem partitionSort_of_perm (rearranged : others.Perm items)
    (apart : (items.map fun item => standing (score item)).Nodup) :
    partitionSort (byScore score) others = partitionSort (byScore score) items := by
  have sorted := partitionSort_isStableSort score items
  have same := partitionSort_perm_of_perm score rearranged
  refine same.eq_of_pairwise (fun item other member member' above below => ?_)
    (partitionSort_isStableSort score others).ascending sorted.ascending
  have level : standing (score item) = standing (score other) :=
    le_antisymm (isLess_eq_false_iff.mp above) (isLess_eq_false_iff.mp below)
  exact List.inj_on_of_nodup_map apart ((same.trans sorted.perm).mem_iff.mp member)
    (sorted.perm.mem_iff.mp member') level

/-! ## Rankings -/

theorem ties_isLess_iff {score other : Float} :
    ties isLess score other = true ↔ standing score = standing other := by
  rw [ties_eq_true_iff, isLess_eq_false_iff, isLess_eq_false_iff]
  exact ⟨fun ⟨above, below⟩ => le_antisymm below above, fun same => ⟨same.ge, same.le⟩⟩

variable {records listed : List Record} {key : String}

theorem top_eq_partitionSort (records : List Record) (key : String) (k : Nat) :
    top records key k =
      (partitionSort (byScore Entry.score) (eligible records key)).reverse.take
        (min k (eligible records key).length) := rfl

theorem eligible_perm (rearranged : listed.Perm records) (key : String) :
    (eligible listed key).Perm (eligible records key) := rearranged.filterMap _

/-- A ranking has the same standings however its records are listed. -/
theorem standings_of_top (rearranged : listed.Perm records) (key : String) (k : Nat) :
    (top listed key k).map (fun entry => standing entry.score) =
      (top records key k).map fun entry => standing entry.score := by
  have same := eligible_perm rearranged key
  simp only [top_eq_partitionSort, List.map_take, List.map_reverse, standings_of_perm same, same.length_eq]

/-- Records of which no two tie make entries that each have a standing of their own. -/
theorem nodup_standings
    (apart : records.Pairwise fun record other => ∀ value ∈ record.get? key, ∀ value' ∈ other.get? key,
      ties isLess value.score value'.score = false) :
    ((eligible records key).map fun entry => standing entry.score).Nodup := by
  rw [eligible, List.map_filterMap]
  refine apart.filterMap _ fun record other differ level read level' read' => ?_
  simp only [Entry.ofRecord?, Option.map_map, Option.map_eq_some_iff] at read read'
  obtain ⟨value, held, rfl⟩ := read
  obtain ⟨value', held', rfl⟩ := read'
  intro same
  exact absurd (ties_isLess_iff.mpr same) (by simp [differ value held value' held'])

/-- **Scores rank the same however the records are listed.** Rankings of one list and of any rearrangement of it
are equally long, and the scores in each place tie. If no two of the records that have the attribute tie,
the rankings are the same, with the same identifiers. -/
theorem ranking_ignores_listing (rearranged : listed.Perm records) (key : String) (k : Nat) :
    List.Forall₂ (fun entry other => ties isLess entry.score other.score = true)
        (top listed key k) (top records key k) ∧
      ((records.Pairwise fun record other => ∀ value ∈ record.get? key, ∀ value' ∈ other.get? key,
          ties isLess value.score value'.score = false) →
        top listed key k = top records key k) := by
  constructor
  · have same := standings_of_top rearranged key k
    rw [← List.forall₂_eq_eq_eq, List.forall₂_map_left_iff, List.forall₂_map_right_iff] at same
    exact same.imp fun _ _ => ties_isLess_iff.mpr
  · intro apart
    have same := eligible_perm rearranged key
    rw [top_eq_partitionSort, top_eq_partitionSort, partitionSort_of_perm same (nodup_standings apart),
      same.length_eq]

/-- A list and the list turned round, with a text, a flag, nothing and no number among the scores. -/
theorem ranking_ignores_listing_reversed :
    let rated (id : String) (rating : Json) : Record := ⟨.book, [("book_id", .text id), ("rating", rating)]⟩
    let records := [rated "1" (.bool true), rated "2" (.array []), rated "3" (.text " 4.5 "), rated "4" .null]
    records.reverse.Perm records ∧ top records.reverse "rating" 3 = top records "rating" 3 ∧
      (top records "rating" 3).map Entry.identifier = ["3", "1", "4"] := by
  intro rated records
  have rearranged := List.reverse_perm records
  refine ⟨rearranged, (ranking_ignores_listing rearranged "rating" 3).2 ?_, ?_⟩
  · decide +kernel
  · decide +kernel

end BookCatalog.Ranking
