import BookCatalog.Ranking.Top
import BookCatalog.Proofs.Ranking.Order
import BookCatalog.Proofs.Ranking.Sort

/-!
A ranking puts each record in the place that its rank is. The rank of a record counts the records
that outrank it, straight from the scores and the positions of the list; that the sort, the turn and
the cut come to the same is shown by sorting the records together with their positions.
-/
namespace BookCatalog.Ranking

/-- The score of the record at a position, if there is one that has the attribute. -/
def scoreAt? (records : List Record) (key : String) (position : Nat) : Option Float :=
  (records[position]?.bind (·.get? key)).map Json.score

/-- The record at `j` outranks the one at `i`: both have the attribute, and the score at `i` is
less, or neither is less and `j` comes later. -/
def outranks (records : List Record) (key : String) (j i : Nat) : Bool :=
  match scoreAt? records key j, scoreAt? records key i with
  | some score, some other =>
    isLess other score || (!isLess other score && !isLess score other && decide (i < j))
  | _, _ => false

/-- How many records outrank the one at a position. -/
def rank (records : List Record) (key : String) (position : Nat) : Nat :=
  (List.range records.length).countP (outranks records key · position)

/-! ## Entries with their positions -/

/-- An entry with the position of its record. -/
abbrev Placed := Entry Float × Nat

/-- Whether an entry is less than another by its score. -/
def Placed.less (entry other : Placed) : Bool := isLess entry.1.score other.1.score

/-- An entry that comes out in front of another: it is greater, or they tie and it came later. -/
abbrev Placed.Beats (entry other : Placed) : Prop :=
  Precedes Placed.less (fun first second => first.2 < second.2) other entry

instance (entry other : Placed) : Decidable (entry.Beats other) :=
  inferInstanceAs (Decidable (_ ∨ _ ∧ _))

/-- The eligible entries with the positions of their records. -/
def placed (records : List Record) (key : String) : List Placed :=
  records.zipIdx.filterMap fun (record, position) =>
    (Entry.ofRecord? key record).map fun entry => (entry, position)

/-- The eligible entries in the order in which they come out. -/
def ranked (records : List Record) (key : String) : List Placed :=
  (sortRecursively Placed.less (placed records key)).reverse

variable {records : List Record} {key : String} {entry other : Placed}

theorem Placed.beats_iff :
    entry.Beats other ↔ standing other.1.score < standing entry.1.score ∨
      standing other.1.score ≤ standing entry.1.score ∧ other.2 < entry.2 := by
  simp only [Beats, Precedes, Placed.less, isLess_iff, isLess_eq_false_iff]

theorem Placed.Beats.asymm (beats : entry.Beats other) : ¬ other.Beats entry := by
  rw [beats_iff] at beats ⊢
  rintro (less | ⟨least, later⟩) <;> rcases beats with less' | ⟨least', later'⟩
  · exact lt_asymm less less'
  · exact not_lt_of_ge least' less
  · exact not_lt_of_ge least less'
  · omega

theorem mem_placed :
    entry ∈ placed records key ↔
      ∃ record, records[entry.2]? = some record ∧ Entry.ofRecord? key record = some entry.1 := by
  obtain ⟨entry, position⟩ := entry
  simp only [placed, List.mem_filterMap, Prod.exists, List.mk_mem_zipIdx_iff_getElem?,
    Option.map_eq_some_iff, Prod.mk.injEq]
  constructor
  · rintro ⟨record, _, found, _, read, rfl, rfl⟩
    exact ⟨record, found, read⟩
  · rintro ⟨record, found, read⟩
    exact ⟨record, position, found, entry, read, rfl, rfl⟩

theorem map_fst_placed : (placed records key).map Prod.fst = eligible records key := by
  unfold placed eligible
  rw [List.map_filterMap]
  conv_rhs => rw [← List.zipIdx_map_fst 0 records, List.filterMap_map]
  congr 1
  funext ⟨record, position⟩
  simp [Function.comp_def]

theorem placed_pairwise : (placed records key).Pairwise fun first second => first.2 < second.2 := by
  have ordered : records.zipIdx.Pairwise fun first second => first.2 < second.2 := by
    rw [← List.pairwise_map, List.zipIdx_map_snd]
    exact List.pairwise_lt_range'
  refine ordered.filterMap _ fun first second before entry read other read' => ?_
  obtain ⟨_, -, rfl⟩ := Option.map_eq_some_iff.mp read
  obtain ⟨_, -, rfl⟩ := Option.map_eq_some_iff.mp read'
  exact before

theorem scoreAt?_of_mem_placed (member : entry ∈ placed records key) :
    scoreAt? records key entry.2 = some entry.1.score := by
  obtain ⟨record, found, read⟩ := mem_placed.mp member
  obtain ⟨value, held, same⟩ := Option.map_eq_some_iff.mp read
  simp [scoreAt?, found, held, ← same]

theorem exists_mem_placed {position : Nat} {score : Float}
    (scored : scoreAt? records key position = some score) :
    ∃ entry ∈ placed records key, entry.2 = position ∧ entry.1.score = score := by
  obtain ⟨value, read, rfl⟩ := Option.map_eq_some_iff.mp scored
  obtain ⟨record, found, held⟩ := Option.bind_eq_some_iff.mp read
  refine ⟨(⟨record.identifier?.getD "", value.score⟩, position), mem_placed.mpr ?_, rfl, rfl⟩
  exact ⟨record, found, by simp [Entry.ofRecord?, held]⟩

theorem length_placed :
    (placed records key).length = records.countP fun record => (record.get? key).isSome := by
  rw [← List.length_map, map_fst_placed, eligible, List.length_filterMap_eq_countP]
  simp [Entry.ofRecord?]

/-- The rank of a record counts the eligible entries that come out in front of its own. -/
theorem rank_eq_countP (member : entry ∈ placed records key) :
    rank records key entry.2 = (placed records key).countP fun other => other.Beats entry := by
  have own := scoreAt?_of_mem_placed member
  have positions : List.range records.length = records.zipIdx.map Prod.snd := by
    rw [List.zipIdx_map_snd, List.range_eq_range']
  rw [rank, positions, List.countP_map, placed, List.countP_filterMap]
  refine List.countP_congr fun ⟨record, position⟩ held => ?_
  have found := List.mk_mem_zipIdx_iff_getElem?.mp held
  cases value : record.get? key with
  | none => simp [outranks, scoreAt?, found, value, Entry.ofRecord?]
  | some json =>
    have other : scoreAt? records key position = some json.score := by simp [scoreAt?, found, value]
    simp only [Function.comp_apply, outranks, other, own, Entry.ofRecord?, value, Option.map_some,
      Placed.Beats, Precedes, Placed.less, Option.getD_some, Bool.or_eq_true, Bool.and_eq_true,
      Bool.not_eq_true', decide_eq_true_eq]
    by_cases less : isLess entry.1.score json.score = true
    · simp [less]
    · rw [Bool.not_eq_true] at less
      simp [less]

/-! ## Places in a list that is ordered -/

/-- In a list that an asymmetric relation orders, each member has as many members before it in the
relation as in the list. -/
theorem countP_of_pairwise {α : Type} {before : α → α → Prop} [DecidableRel before]
    (asymm : ∀ first second, before first second → ¬ before second first) {items : List α} {item : α}
    {place : Nat} (ordered : items.Pairwise before) (found : items[place]? = some item) :
    items.countP (before · item) = place := by
  induction items generalizing place with
  | nil => simp at found
  | cons first rest ih =>
    obtain ⟨front, ordered⟩ := List.pairwise_cons.mp ordered
    cases place with
    | zero =>
      obtain rfl : first = item := by simpa using found
      have self : ¬ before first first := fun holds => asymm _ _ holds holds
      have others : rest.countP (before · first) = 0 :=
        List.countP_eq_zero.mpr fun other member => by simpa using asymm _ _ (front other member)
      simp [self, others]
    | succ place =>
      have found : rest[place]? = some item := by simpa using found
      simp [front item (List.mem_of_getElem? found), ih ordered found]

theorem ranked_perm : (ranked records key).Perm (placed records key) :=
  (List.reverse_perm _).trans (sortRecursively_perm _)

theorem ranked_pairwise : (ranked records key).Pairwise Placed.Beats := by
  refine List.pairwise_reverse.mpr (sortRecursively_pairwise ?_ placed_pairwise)
  intro low mid high less
  simp only [Placed.less, isLess_iff] at less ⊢
  rcases lt_or_ge (standing low.1.score) (standing mid.1.score) with below | above
  · exact .inl below
  · exact .inr (above.trans_lt less)

/-- The entry in a place has that place as its rank. -/
theorem rank_of_ranked {place : Nat} (found : (ranked records key)[place]? = some entry) :
    rank records key entry.2 = place := by
  have member := ranked_perm.mem_iff.mp (List.mem_of_getElem? found)
  rw [rank_eq_countP member, ← ranked_perm.countP_eq]
  exact countP_of_pairwise (fun _ _ => Placed.Beats.asymm) ranked_pairwise found

/-- An eligible entry stands in the place that its rank is. -/
theorem ranked_at_rank (member : entry ∈ placed records key) :
    (ranked records key)[rank records key entry.2]? = some entry := by
  obtain ⟨place, found⟩ := List.mem_iff_getElem?.mp (ranked_perm.mem_iff.mpr member)
  rwa [rank_of_ranked found]

theorem rank_lt_of_beats (member : entry ∈ placed records key) (member' : other ∈ placed records key)
    (beats : entry.Beats other) : rank records key entry.2 < rank records key other.2 := by
  have found := ranked_at_rank member
  have found' := ranked_at_rank member'
  rcases lt_trichotomy (rank records key entry.2) (rank records key other.2) with less | same | more
  · exact less
  · rw [same, found'] at found
    obtain rfl : other = entry := Option.some.inj found
    exact absurd beats beats.asymm
  · have wrong : other.Beats entry := by
      obtain ⟨inside, own⟩ := List.getElem?_eq_some_iff.mp found
      obtain ⟨inside', own'⟩ := List.getElem?_eq_some_iff.mp found'
      have ordered := List.pairwise_iff_getElem.mp ranked_pairwise _ _ inside' inside more
      rwa [own, own'] at ordered
    exact absurd wrong beats.asymm

theorem top_eq (k : Nat) :
    top records key k =
      ((ranked records key).map Prod.fst).take (min k (placed records key).length) := by
  have sorted : partitionSort (fun entry other => isLess entry.score other.score) (eligible records key) =
      (sortRecursively Placed.less (placed records key)).map Prod.fst := by
    rw [partitionSort_eq, ← map_fst_placed, sortRecursively_map]
    rfl
  have count : (eligible records key).length = (placed records key).length := by
    rw [← map_fst_placed, List.length_map]
  simp only [top, sorted, count, ranked, List.map_reverse]

theorem length_top (k : Nat) :
    (top records key k).length = min k (records.countP fun record => (record.get? key).isSome) := by
  rw [top_eq, List.length_take, List.length_map, ranked_perm.length_eq, length_placed]
  omega

theorem rank_lt_length (member : entry ∈ placed records key) :
    rank records key entry.2 < (placed records key).length := by
  rw [← ranked_perm.length_eq]
  exact (List.getElem?_eq_some_iff.mp (ranked_at_rank member)).1

/-- The record in a place is the one with that place as its rank. -/
theorem top_at_place {k place : Nat} (inside : place < (top records key k).length) :
    ∃ entry ∈ placed records key, rank records key entry.2 = place ∧
      (top records key k)[place]? = some entry.1 ∧
      ∀ other ∈ placed records key, rank records key other.2 = place → other = entry := by
  have cut : place < min k (placed records key).length := by
    rwa [length_top, ← length_placed] at inside
  have stands : place < (ranked records key).length := by
    rw [ranked_perm.length_eq]
    omega
  have found := List.getElem?_eq_getElem stands
  refine ⟨(ranked records key)[place], ranked_perm.mem_iff.mp (List.getElem_mem stands),
    rank_of_ranked found, ?_, fun other member same => ?_⟩
  · rw [top_eq, List.getElem?_take_of_lt cut, List.getElem?_map, found, Option.map_some]
  · have placing := ranked_at_rank member
    rw [same, found] at placing
    exact (Option.some.inj placing).symm

/-- **A ranking places records by their ranks.** It is as long as it is asked to be, or as there
are records with the attribute; each of its entries is made from the one record of that rank; and
what it leaves out are the records that `k` others outrank. What is no number ranks behind every
number, and of two that tie the later one ranks first, be they equal doubles or no numbers. -/
theorem top_places_by_rank (records : List Record) (key : String) (k : Nat) :
    (top records key k).length =
        min k (records.countP fun record => (record.get? key).isSome) ∧
      (∀ place < (top records key k).length, ∃ position record value,
        records[position]? = some record ∧ record.get? key = some value ∧
        rank records key position = place ∧
        (top records key k)[place]? = some ⟨record.identifier?.getD "", value.score⟩ ∧
        ∀ other, (scoreAt? records key other).isSome → rank records key other = place →
          other = position) ∧
      (∀ position, (scoreAt? records key position).isSome →
        (rank records key position < (top records key k).length ↔ rank records key position < k)) ∧
      (∀ i j score other, scoreAt? records key i = some score → scoreAt? records key j = some other →
        score.isNaN = true → other.isNaN = false → rank records key j < rank records key i) ∧
      ∀ i j score other, scoreAt? records key i = some score → scoreAt? records key j = some other →
        (score == other) = true ∨ score.isNaN = true ∧ other.isNaN = true → i < j →
        rank records key j < rank records key i := by
  refine ⟨length_top k, fun place inside => ?_, fun position scored => ?_, ?_, ?_⟩
  · obtain ⟨entry, member, rank_eq, shown, unique⟩ := top_at_place inside
    obtain ⟨record, found, read⟩ := mem_placed.mp member
    obtain ⟨value, held, made⟩ := Option.map_eq_some_iff.mp read
    refine ⟨entry.2, record, value, found, held, rank_eq, by rw [shown, made], ?_⟩
    intro other scored same
    obtain ⟨score, scored⟩ := Option.isSome_iff_exists.mp scored
    obtain ⟨entry', member', rfl, -⟩ := exists_mem_placed scored
    rw [unique entry' member' same]
  · obtain ⟨score, scored⟩ := Option.isSome_iff_exists.mp scored
    obtain ⟨entry, member, rfl, -⟩ := exists_mem_placed scored
    have inside := rank_lt_length member
    rw [length_top, ← length_placed]
    omega
  · intro i j score other scored scored' nan number
    obtain ⟨entry, member, rfl, rfl⟩ := exists_mem_placed scored
    obtain ⟨entry', member', rfl, rfl⟩ := exists_mem_placed scored'
    have below := standing_lt_of_isNaN nan number
    exact rank_lt_of_beats member' member (Placed.beats_iff.mpr (.inl below))
  · intro i j score other scored scored' tie later
    obtain ⟨entry, member, rfl, rfl⟩ := exists_mem_placed scored
    obtain ⟨entry', member', rfl, rfl⟩ := exists_mem_placed scored'
    have level : standing entry.1.score = standing entry'.1.score := by
      rcases tie with same | ⟨nan, nan'⟩
      · exact standing_eq_of_beq same
      · exact standing_eq_of_isNaN nan nan'
    exact rank_lt_of_beats member' member (Placed.beats_iff.mpr (.inr ⟨level.le, later⟩))

end BookCatalog.Ranking
