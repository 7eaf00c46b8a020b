import BookCatalog.Proofs.Chart.Ranking
import BookCatalog.Proofs.Decimal.Fixed

/-!
Bars of the table. A bar counts four times the score to the nearest whole number, and neither the product nor the
rounding nor the bounds turn the order of scores around, so going down the table bars get no longer. The infinity
above all scores is the one exception: it is given no bar, and it stands in front.
-/
namespace BookCatalog.Ranking

open Double
open Float.Model (UnpackedFloat)

/-- A score above every finite one. -/
def IsEndless (score : Float) : Prop := score.isFinite = false ∧ 0.0 < score

instance (score : Float) : Decidable (IsEndless score) := inferInstanceAs (Decidable (_ ∧ _))

/-- The marks at the end of a row, which are its bar. -/
def marks (row : String) : Nat := (row.toList.reverse.takeWhile (· == '#')).length

variable {score other : Float}

/-! ## The length of a bar -/

theorem isEndless_iff : IsEndless score ↔ parts score = .infinity .positive := by
  have finite : score.isFinite = (parts score).isFinite := rfl
  have above : 0.0 < score ↔ (UnpackedFloat.zero .positive).lt (parts score) = true := by
    show decide ((UnpackedFloat.zero .positive).lt (parts score) = true) = true ↔ _
    rw [decide_eq_true_iff]
  rw [IsEndless, finite, above]
  cases parts score with
  | notANumber => simp [UnpackedFloat.lt, UnpackedFloat.compare]
  | infinity s => cases s <;> simp [UnpackedFloat.isFinite, UnpackedFloat.lt, UnpackedFloat.compare]
  | zero s => simp [UnpackedFloat.isFinite]
  | finite s m e pos => simp [UnpackedFloat.isFinite]

/-- A ratio has a denominator and is the amount that it was made of. -/
theorem ratio_spec (m : ℕ) (e : ℤ) :
    0 < (Decimal.ratio 2 m e).2 ∧ ((Decimal.ratio 2 m e).1 : ℚ) / (Decimal.ratio 2 m e).2 = m * 2 ^ e := by
  have pos : 0 < 2 ^ (-e).toNat := Nat.two_pow_pos _
  have exponent : e = e.toNat - (-e).toNat := by omega
  refine ⟨pos, ?_⟩
  show ((m * 2 ^ e.toNat : ℕ) : ℚ) / (2 ^ (-e).toNat : ℕ) = m * 2 ^ e
  conv_rhs => rw [exponent, zpow_sub₀ two_ne_zero, zpow_natCast, zpow_natCast]
  push_cast
  ring

/-- The bar of a finite score is the nearest count to four times its amount, within the bounds. -/
theorem barLength_of_isFinite (finite : (parts score).isFinite) :
    barLength score = min 20 ⌊4 * amount (parts score) + 1 / 2⌋₊ := by
  obtain ⟨s, zero⟩ | ⟨s, m, e, pos, taken⟩ := isFinite_cases finite
  · have value : Decimal.Value.ofFloat score = .finite (s == .negative) 0 0 := by
      rw [Decimal.Value.ofFloat, show score.toModel.unpack = _ from zero]
    have gone : ⌊(1 / 2 : ℚ)⌋₊ = 0 := Nat.floor_eq_zero.mpr (by norm_num)
    rw [barLength, value, zero, amount, mul_zero, zero_add, gone]
    cases s <;> rfl
  · have value : Decimal.Value.ofFloat score = .finite (s == .negative) m e := by
      rw [Decimal.Value.ofFloat, show score.toModel.unpack = _ from taken]
    have size := magnitude_pos pos e
    rw [barLength, value, taken, amount]
    cases s with
    | negative =>
      have below : 4 * (factor .negative * (m * 2 ^ e)) + 1 / 2 < 1 := by
        rw [factor_negative]
        linarith
      rw [Nat.floor_eq_zero.mpr below]
      rfl
    | positive =>
      obtain ⟨denominator, same⟩ := ratio_spec m e
      show min 20 (Decimal.roundDiv .up (4 * (Decimal.ratio 2 m e).1) (Decimal.ratio 2 m e).2) = _
      rw [Decimal.roundDiv_up denominator, factor_positive, one_mul, ← same, ← Nat.floor_div_eq_div (K := ℚ)]
      congr 2
      have nonzero : ((Decimal.ratio 2 m e).2 : ℚ) ≠ 0 := by exact_mod_cast denominator.ne'
      push_cast
      field_simp

theorem barLength_of_not_isFinite (infinite : ¬ (parts score).isFinite) : barLength score = 0 := by
  rw [barLength, Decimal.Value.ofFloat, show score.toModel.unpack = parts score from rfl]
  cases taken : parts score with
  | notANumber => rfl
  | infinity s => rfl
  | zero s => exact absurd (taken ▸ rfl) infinite
  | finite s m e pos => exact absurd (taken ▸ rfl) infinite

theorem barLength_le (score : Float) : barLength score ≤ 20 := by
  by_cases finite : (parts score).isFinite
  · rw [barLength_of_isFinite finite]
    exact min_le_left _ _
  · rw [barLength_of_not_isFinite finite]
    exact Nat.zero_le _

theorem IsEndless.barLength_eq (endless : IsEndless score) : barLength score = 0 :=
  barLength_of_not_isFinite (by rw [isEndless_iff.mp endless]; exact Bool.false_ne_true)

/-- A greater score has no shorter bar, unless it is infinite. -/
theorem barLength_mono (order : score ≤ other) (bounded : ¬ IsEndless other) : barLength score ≤ barLength other := by
  obtain low | high | ⟨finite, finite', amounts⟩ := le_cases order
  · rw [barLength_of_not_isFinite (by rw [low]; exact Bool.false_ne_true)]
    exact Nat.zero_le _
  · exact absurd (isEndless_iff.mpr high) bounded
  · rw [barLength_of_isFinite finite, barLength_of_isFinite finite']
    exact min_le_min_left 20 (Nat.floor_mono (by linarith))

/-! ## The bars of a table -/

/-- The bar stands behind blanks, so the marks at the end of a row are the bar's, whatever the identifier is. -/
theorem marks_row (width place : Nat) (entry : Entry Float) :
    marks (row width place entry) = barLength entry.score := by
  have bar : ∀ c ∈ List.replicate (barLength entry.score) '#', (c == '#') = true := by
    intro c member
    rw [List.eq_of_mem_replicate member]
    rfl
  simp only [marks, row, String.toList_append, List.reverse_append, String.toList_ofList, List.reverse_replicate]
  rw [List.takeWhile_append_of_pos bar]
  simp

theorem map_marks_rows (entries : List (Entry Float)) :
    (rows entries).map marks = entries.map fun entry => barLength entry.score := by
  rw [rows, List.map_map]
  simp only [Function.comp_def, marks_row]
  exact Chart.Layout.map_zipIdx entries fun entry => barLength entry.score

theorem parts_of_isNaN (nan : score.isNaN = true) : parts score = .notANumber := by
  have nothing : (parts score).isNaN = true := nan
  cases taken : parts score with
  | notANumber => rfl
  | infinity s | zero s | finite s m e pos =>
    rw [taken] at nothing
    cases nothing

/-- In the order of a ranking, infinite scores come first, and behind the others bars get no longer. -/
theorem barLength_descends
    (order : other.isNaN = false → score.isNaN = false ∧ other ≤ score) :
    (IsEndless other → IsEndless score) ∧ (¬ IsEndless score → barLength other ≤ barLength score) := by
  cases nan : other.isNaN with
  | false =>
    obtain ⟨-, below⟩ := order nan
    refine ⟨fun endless => ?_, barLength_mono below⟩
    have top := isEndless_iff.mp endless
    obtain low | high | ⟨finite, -, -⟩ := le_cases below
    · rw [top] at low
      cases low
    · exact isEndless_iff.mpr high
    · rw [top] at finite
      cases finite
  | true =>
    have nothing := parts_of_isNaN nan
    constructor
    · intro endless
      rw [isEndless_iff, nothing] at endless
      cases endless
    · intro _
      rw [barLength_of_not_isFinite (by rw [nothing]; exact Bool.false_ne_true)]
      exact Nat.zero_le _

/-- Then bars get no longer over the whole list exactly if no score is infinite, or there are no bars. -/
theorem bars_descend_iff {entries : List (Entry Float)}
    (descends : entries.Pairwise fun entry later => (IsEndless later.score → IsEndless entry.score) ∧
      (¬ IsEndless entry.score → barLength later.score ≤ barLength entry.score)) :
    (entries.map fun entry => barLength entry.score).Pairwise (· ≥ ·) ↔
      (∀ entry ∈ entries, ¬ IsEndless entry.score) ∨ ∀ entry ∈ entries, barLength entry.score = 0 := by
  rw [List.pairwise_map]
  constructor
  · intro shrink
    cases entries with
    | nil => simp
    | cons first rest =>
      -- An infinite score would stand first, and no bar is longer than the first one.
      by_cases endless : IsEndless first.score
      · right
        refine List.forall_mem_cons.mpr ⟨endless.barLength_eq, fun entry member => ?_⟩
        have shorter := List.rel_of_pairwise_cons shrink member
        rw [endless.barLength_eq] at shorter
        exact Nat.le_zero.mp shorter
      · left
        refine List.forall_mem_cons.mpr ⟨endless, fun entry member endless' => ?_⟩
        exact endless ((List.rel_of_pairwise_cons descends member).1 endless')
  · rintro (bounded | none)
    · exact descends.imp_of_mem fun member _ order => order.2 (bounded _ member)
    · refine List.pairwise_of_forall_mem_list fun entry _ later member => ?_
      rw [none later member]
      exact Nat.zero_le _

/-- **Bars get no longer from one row to the next**, behind the rows with an infinite score, in the table of any
ranking. Those rows come first and have no bar; so over the whole table bars get no longer exactly if there is no
such row or there are no bars at all. No bar is longer than twenty marks. -/
theorem bars_shrink (records : List Record) (key : String) (k : Nat) :
    let entries := top records key k
    let bars := (rows entries).map marks
    table entries = (if entries.isEmpty then "Nothing to rank." else "\n".intercalate (rows entries)) ∧
      bars.length = entries.length ∧ (∀ bar ∈ bars, bar ≤ 20) ∧
      ((entries.zip bars).Pairwise fun (entry, bar) (later, bar') =>
        (IsEndless later.score → IsEndless entry.score) ∧ (¬ IsEndless entry.score → bar' ≤ bar)) ∧
      (∀ shown ∈ entries.zip bars, IsEndless shown.1.score → shown.2 = 0) ∧
      (bars.Pairwise (· ≥ ·) ↔ (∀ entry ∈ entries, ¬ IsEndless entry.score) ∨ ∀ bar ∈ bars, bar = 0) := by
  intro entries bars
  have lengths : bars = entries.map fun entry => barLength entry.score := map_marks_rows entries
  have both : entries.zip bars = entries.map fun entry => (entry, barLength entry.score) := by
    rw [lengths, ← List.zip_map', List.map_id']
  have descends : entries.Pairwise fun entry later => (IsEndless later.score → IsEndless entry.score) ∧
      (¬ IsEndless entry.score → barLength later.score ≤ barLength entry.score) :=
    (top_descends records key k).imp barLength_descends
  refine ⟨table_eq entries, by simp [lengths], ?_, ?_, ?_, ?_⟩
  · rw [lengths, List.forall_mem_map]
    exact fun entry _ => barLength_le entry.score
  · rw [both, List.pairwise_map]
    exact descends
  · rw [both, List.forall_mem_map]
    exact fun entry _ => IsEndless.barLength_eq
  · rw [lengths, List.forall_mem_map]
    exact bars_descend_iff descends

/-- A rating that reads as infinite is ranked first and has no bar, and the full bar of the next one is longer. -/
theorem infinite_rating_without_bar :
    let rated (id rating : String) : Record := ⟨.book, [("book_id", .text id), ("rating", .text rating)]⟩
    let entries := top [rated "1" "5", rated "2" "1e400", rated "3" "four"] scoreAttribute 3
    table entries = "  1. 2    inf  \n  2. 1   5.00  ####################\n  3. 3    NaN  " ∧
      (rows entries).map marks = [0, 20, 0] ∧ ¬ ((rows entries).map marks).Pairwise (· ≥ ·) := by
  decide +kernel

end BookCatalog.Ranking
