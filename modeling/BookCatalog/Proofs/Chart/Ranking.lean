import BookCatalog.Chart.Model
import BookCatalog.Ranking.Table
import BookCatalog.Proofs.Double.Order
import BookCatalog.Proofs.Ranking.Placement
import BookCatalog.Proofs.Ranking.Rearrangement

/-!
A chart shows its ranking: a bar, a label and a tick for each entry, which is what the table has a row for, and in
the order of the table. A ranking goes downwards, and heights grow with scores, rounded as they are; so bars never
get higher from left to right, and labels never move up.
-/
namespace BookCatalog.Ranking

/-! ## Rankings go downwards -/

/-- The rows of a table. -/
def rows (entries : List (Entry Float)) : List String :=
  entries.zipIdx.map fun (entry, place) => row (columnWidth entries) place entry

theorem table_eq (entries : List (Entry Float)) :
    table entries = if entries.isEmpty then "Nothing to rank." else "\n".intercalate (rows entries) := rfl

variable {score other : Float}

/-- A number that does not stand above a score is no greater as a double either. -/
theorem le_of_standing_le (below : standing score ≤ standing other) (number : score.isNaN = false) :
    other.isNaN = false ∧ score ≤ other := by
  have number' : other.isNaN = false := by
    cases nan : other.isNaN with
    | false => rfl
    | true => exact absurd (standing_lt_of_isNaN nan number) below.not_gt
  have order := compare_place number number'
  refine ⟨number', Double.le_iff_parts.mpr ?_⟩
  show (score.toModel.unpack.compare other.toModel.unpack).any (·.isLE) = true
  revert order
  split
  · simp_all
  · simp_all
  · intro above
    exact absurd above below.not_gt
  · exact False.elim

theorem top_descends (records : List Record) (key : String) (k : Nat) :
    (top records key k).Pairwise fun entry later => later.score.isNaN = false →
      entry.score.isNaN = false ∧ later.score ≤ entry.score := by
  have ascending := (partitionSort_isStableSort Entry.score (eligible records key)).ascending
  rw [top_eq_partitionSort]
  refine (List.pairwise_reverse.mpr (ascending.imp fun above => ?_)).take
  exact le_of_standing_le (isLess_eq_false_iff.mp above)

end BookCatalog.Ranking

namespace BookCatalog.Chart.Layout

open Ranking Double

/-- A shape that scores can be drawn on: its top score and its plot have a height. -/
structure IsDrawable (layout : Layout Float) : Prop where
  scoreMax : IsPositive layout.scoreMax
  plot : IsPositive layout.plotHeight
  baseline : layout.baseline.isFinite = true

theorem standard_isDrawable : (standard : Layout Float).IsDrawable where
  scoreMax := ⟨by decide +kernel, by decide +kernel⟩
  plot := ⟨by decide +kernel, by decide +kernel⟩
  baseline := by decide +kernel

/-! ## What a chart shows of each entry -/

theorem map_zipIdx {α β : Type} (items : List α) (f : α → β) :
    (items.zipIdx.map fun placed => f placed.1) = items.map f := by
  conv_rhs => rw [← List.zipIdx_map_fst 0 items, List.map_map]
  rfl

section

variable {α : Type} [Quantity α] (layout : Layout α) (entries : List (Entry α))

theorem map_bars :
    ((layout.project entries).bars.map fun bar => Entry.mk bar.identifier bar.score) = entries := by
  rw [project, List.map_map]
  exact (map_zipIdx entries id).trans (List.map_id entries)

theorem map_labels :
    (layout.project entries).labels.map Label.text = entries.map fun entry => Quantity.plain entry.score := by
  rw [project, List.map_map]
  exact map_zipIdx entries fun entry => Quantity.plain entry.score

theorem map_ticks :
    (layout.project entries).horizontal.ticks.map Tick.label = entries.map Entry.identifier := by
  rw [project, horizontalAxis, List.map_map]
  exact map_zipIdx entries Entry.identifier

theorem zip_bars_labels :
    (layout.project entries).bars.zip (layout.project entries).labels =
      entries.zipIdx.map fun (entry, index) =>
        (layout.bar entries.length index entry, layout.label entries.length index entry) := by
  simp only [project, List.zip_map']

end

/-! ## From left to right -/

variable {layout : Layout Float} {entries : List (Entry Float)} {entry other : Entry Float}

/-- Greater scores have bars that are no lower and labels that stand no lower, wherever on the chart they are. -/
theorem bar_label_mono (drawable : layout.IsDrawable) (order : entry.score ≤ other.score)
    (count index index' : Nat) :
    (layout.bar count index entry).height ≤ (layout.bar count index' other).height ∧
      (layout.label count index' other).y ≤ (layout.label count index entry).y := by
  have height : layout.scale entry.score ≤ layout.scale other.score :=
    mul_mono drawable.plot (div_mono drawable.scoreMax order)
  have gap : (2.0 : Float).isFinite = true := by decide +kernel
  exact ⟨height, sub_mono gap (sub_antitone drawable.baseline height)⟩

/-- What goes downwards as scores goes downwards as bars and labels. -/
theorem bars_descend (drawable : layout.IsDrawable)
    (descends : entries.Pairwise fun entry later => later.score.isNaN = false →
      entry.score.isNaN = false ∧ later.score ≤ entry.score) :
    ((layout.project entries).bars.zip (layout.project entries).labels).Pairwise
      fun (bar, label) (later, label') => later.score.isNaN = false →
        bar.score.isNaN = false ∧ later.height ≤ bar.height ∧ label.y ≤ label'.y := by
  rw [← List.zipIdx_map_fst 0 entries, List.pairwise_map] at descends
  rw [zip_bars_labels, List.pairwise_map]
  refine descends.imp fun {placed placed'} order number => ?_
  obtain ⟨number', below⟩ := order number
  exact ⟨number', bar_label_mono drawable below entries.length placed'.2 placed.2⟩

/-- **The chart shows the ranking**, by any attribute. It has as many bars, labels and ticks as the table has rows,
which is as many as were asked for or can be ranked, and they carry the identifiers and scores of the ranking in its
order. From left to right, no number comes behind what is none, no bar of a number is higher than one before it, and
its label stands no higher; this is the order of the rounded coordinates, infinite ones among them. -/
theorem chart_shows_ranking (records : List Record) (key : String) (k : Nat) :
    let entries := top records key k
    let chart := (standard : Layout Float).project entries
    (chart.bars.map fun bar => Entry.mk bar.identifier bar.score) = entries ∧
      (chart.labels.map Label.text) = (entries.map fun entry => Decimal.plainText entry.score) ∧
      (chart.horizontal.ticks.map Tick.label) = entries.map Entry.identifier ∧
      chart.bars.length = (rows entries).length ∧ chart.labels.length = (rows entries).length ∧
      chart.horizontal.ticks.length = (rows entries).length ∧
      (rows entries).length = min k (records.countP fun record => (record.get? key).isSome) ∧
      table entries = (if chart.bars.isEmpty then "Nothing to rank." else "\n".intercalate (rows entries)) ∧
      (chart.bars.zip chart.labels).Pairwise fun (bar, label) (later, label') => later.score.isNaN = false →
        bar.score.isNaN = false ∧ later.height ≤ bar.height ∧ label.y ≤ label'.y := by
  intro entries chart
  have shown : (rows entries).length = entries.length := by simp [rows]
  refine ⟨map_bars _ entries, map_labels _ entries, map_ticks _ entries, ?_, ?_, ?_, ?_, ?_,
    bars_descend standard_isDrawable (top_descends records key k)⟩
  · simp [chart, project, shown]
  · simp [chart, project, shown]
  · simp [chart, project, horizontalAxis, shown]
  · rw [shown, length_top]
  · rw [table_eq]
    simp [chart, project]

end BookCatalog.Chart.Layout
