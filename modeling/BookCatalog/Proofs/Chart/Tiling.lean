import BookCatalog.Proofs.Chart.Exact

/-!
Bars stand side by side. The plot is what lies to the right of the vertical axis and its gap, and each bar has
an equal slot of it. A bar starts where its slot does and is no wider, so the bars come one after the other and
the last one ends before the edge. They all stand on the horizontal axis, and one of a score in the range of
scores is as high as the range allows.
-/
namespace BookCatalog.Chart.Layout

open Ranking

/-- A shape that leaves room to plot in: to the right of the axis, in each slot, and in height. -/
structure IsRoomy (layout : Layout ℚ) : Prop where
  width : layout.axisX + layout.axisGap < layout.width
  padding_nonneg : 0 ≤ layout.paddingFraction
  padding_lt_one : layout.paddingFraction < 1
  height_pos : 0 < layout.height
  scoreMax_pos : 0 < layout.scoreMax
  plot_pos : 0 < layout.plotFraction
  plot_le_one : layout.plotFraction ≤ 1

example : (standard : Layout ℚ).IsRoomy := by constructor <;> norm_num [standard]

variable {layout : Layout ℚ} {count : Nat}

/-! ## From left to right -/

/-- All slots together are as wide as the plot. -/
theorem slot_mul (counted : count ≠ 0) :
    layout.slot count * count = layout.width - layout.axisX - layout.axisGap := by
  rw [slot_eq, div_mul_cancel₀]
  exact Nat.cast_ne_zero.mpr counted

theorem slot_pos (roomy : layout.IsRoomy) (counted : count ≠ 0) : 0 < layout.slot count := by
  have room := roomy.width
  rw [slot_eq]
  exact div_pos (by linarith) (Nat.cast_pos.mpr (Nat.pos_of_ne_zero counted))

theorem bar_width_pos (roomy : layout.IsRoomy) (counted : count ≠ 0) (index : Nat) (entry : Entry ℚ) :
    0 < (layout.bar count index entry).width := by
  rw [bar_width]
  exact mul_pos (slot_pos roomy counted) (sub_pos.mpr roomy.padding_lt_one)

/-- A bar ends before the slot behind its own starts. -/
theorem bar_end_le (roomy : layout.IsRoomy) (counted : count ≠ 0) (index : Nat) (entry : Entry ℚ) :
    (layout.bar count index entry).x + (layout.bar count index entry).width ≤
      layout.axisX + layout.axisGap + layout.slot count * (index + 1 : ℕ) := by
  have inset : 0 ≤ layout.slot count * layout.paddingFraction :=
    mul_nonneg (slot_pos roomy counted).le roomy.padding_nonneg
  rw [bar_x, bar_width]
  push_cast
  linarith

/-! ## From the top down -/

theorem plotHeight_pos (roomy : layout.IsRoomy) : 0 < layout.plotHeight :=
  mul_pos roomy.height_pos roomy.plot_pos

/-- Scores in their range have heights in that of the plot. -/
theorem scale_mem (roomy : layout.IsRoomy) {score : ℚ} (least : 0 ≤ score) (most : score ≤ layout.scoreMax) :
    0 ≤ layout.scale score ∧ layout.scale score ≤ layout.plotHeight := by
  have plot := (plotHeight_pos roomy).le
  constructor
  · exact mul_nonneg (div_nonneg least roomy.scoreMax_pos.le) plot
  · exact mul_le_of_le_one_left plot ((div_le_one roomy.scoreMax_pos).mpr most)

/-- A bar of such a score lies between the two gaps. -/
theorem bar_mem_plot (roomy : layout.IsRoomy) (count index : Nat) {entry : Entry ℚ}
    (least : 0 ≤ entry.score) (most : entry.score ≤ layout.scoreMax) :
    layout.baselineGap ≤ (layout.bar count index entry).y ∧ 0 ≤ (layout.bar count index entry).height := by
  obtain ⟨nonneg, inside⟩ := scale_mem roomy least most
  refine ⟨?_, nonneg⟩
  have plot := layout.baseline_sub_gap
  show layout.baselineGap ≤ layout.baseline - layout.scale entry.score
  linarith

/-- **The bars tile the plot.** There is one for each entry. The first starts at the gap behind the vertical
axis, each has a width and ends before the next one starts, and the last ends before the edge of the chart. All
of them stand on the horizontal axis; one of a score between zero and the top score lies between the gaps
above and below the plot. -/
theorem bars_tile_plot (roomy : layout.IsRoomy) {entries : List (Entry ℚ)} (nonempty : entries ≠ []) :
    let chart := layout.project entries
    chart.bars.length = entries.length ∧
      (∃ first last, chart.bars.head? = some first ∧ chart.bars.getLast? = some last ∧
        first.x = layout.axisX + layout.axisGap ∧ last.x + last.width ≤ chart.width) ∧
      (∀ index bar next, chart.bars[index]? = some bar → chart.bars[index + 1]? = some next →
        bar.x + bar.width ≤ next.x) ∧
      ∀ bar ∈ chart.bars, 0 < bar.width ∧ bar.y + bar.height = chart.horizontal.originY ∧
        (0 ≤ bar.score → bar.score ≤ layout.scoreMax →
          layout.baselineGap ≤ bar.y ∧ bar.y ≤ bar.y + bar.height ∧
            bar.y + bar.height = layout.height - layout.baselineGap) := by
  have count : entries.length ≠ 0 := List.length_eq_zero_iff.not.mpr nonempty
  have found := bars_getElem? layout entries
  refine ⟨by simp [project], ?ends, ?next, ?each⟩
  case ends =>
    have inhabited : 0 < entries.length := Nat.pos_of_ne_zero count
    have inside : entries.length - 1 < entries.length := Nat.sub_one_lt count
    refine ⟨layout.bar entries.length 0 entries[0],
      layout.bar entries.length (entries.length - 1) entries[entries.length - 1], ?_, ?_, ?_, ?_⟩
    · rw [List.head?_eq_getElem?, found, List.getElem?_eq_getElem inhabited, Option.map_some]
    · rw [List.getLast?_eq_getElem?, found]
      simp [project, List.getElem?_eq_getElem inside]
    · rw [bar_x, Nat.cast_zero, mul_zero, add_zero]
    · have edge := bar_end_le roomy count (entries.length - 1) entries[entries.length - 1]
      rw [Nat.sub_one_add_one count, slot_mul count] at edge
      show _ ≤ layout.width
      linarith
  case next =>
    intro index bar next here there
    rw [found, Option.map_eq_some_iff] at here there
    obtain ⟨entry, -, rfl⟩ := here
    obtain ⟨later, -, rfl⟩ := there
    rw [bar_x _ _ (index + 1)]
    exact bar_end_le roomy count index entry
  case each =>
    intro bar member
    obtain ⟨index, here⟩ := List.mem_iff_getElem?.mp member
    rw [found, Option.map_eq_some_iff] at here
    obtain ⟨entry, -, rfl⟩ := here
    refine ⟨bar_width_pos roomy count index entry, layout.bar_bottom _ index entry, fun least most => ?_⟩
    obtain ⟨top, nonneg⟩ := bar_mem_plot roomy entries.length index least most
    exact ⟨top, le_add_of_nonneg_right nonneg, layout.bar_bottom _ index entry⟩

/-- Without padding the bars touch each other and the edge, and the middle one, of the top score, fills the plot. -/
theorem bars_tile_plot_touching :
    let layout : Layout ℚ := ⟨102, 60, 10, 2, 4, 1 / 2, 0, 1⟩
    let chart := layout.project [⟨"1", 7⟩, ⟨"2", 4⟩, ⟨"3", -1⟩]
    layout.IsRoomy ∧ (∀ bar ∈ chart.bars, 0 < bar.width ∧ bar.y + bar.height = chart.horizontal.originY) ∧
      (chart.bars.map fun bar => (bar.x, bar.x + bar.width)) = [(12, 42), (42, 72), (72, 102)] ∧
      (chart.bars.map Bar.y) = [-15 / 2, layout.baselineGap, 105 / 2] := by
  intro layout chart
  have roomy : layout.IsRoomy := by constructor <;> norm_num [layout]
  obtain ⟨-, -, -, each⟩ := bars_tile_plot roomy (List.cons_ne_nil ⟨"1", 7⟩ [⟨"2", 4⟩, ⟨"3", -1⟩])
  refine ⟨roomy, fun bar member => ⟨(each bar member).1, (each bar member).2.1⟩, ?_, ?_⟩
  · decide +kernel
  · decide +kernel

end BookCatalog.Chart.Layout
