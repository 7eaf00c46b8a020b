import BookCatalog.Proofs.Chart.Exact
import BookCatalog.Proofs.Decimal.Fixed

/-!
Reading scores off the vertical axis. The bars count their heights from the horizontal axis and the ticks count theirs
from the top of the plot, and both come to the same place. The axis has a tick at every step from zero to the count of
steps that is nearest to the top score; so it leaves no step of the range out, and may have one step above it.
-/
namespace BookCatalog.Chart

open Quantity Ranking

/-- The nearest count is the largest one that is at most one half above. -/
theorem Quantity.le_nearestCount_iff {x : ℚ} (nonneg : 0 ≤ x) (count : Nat) :
    count ≤ nearestCount x ↔ count ≤ largestCount ∧ (count : ℚ) ≤ x + 1 / 2 := by
  have den : (0 : ℚ) < 2 * x.den := by have := x.den_pos; positivity
  have num : ((x.num.toNat : ℕ) : ℚ) = x.num := by exact_mod_cast Int.toNat_of_nonneg (Rat.num_nonneg.mpr nonneg)
  have shifted : 2 * (x * x.den) + x.den = (x + 1 / 2) * (2 * x.den) := by ring
  have below : count ≤ Decimal.roundDiv .up x.num.toNat x.den ↔ (count : ℚ) ≤ x + 1 / 2 := by
    rw [Decimal.roundDiv_up x.den_pos, Nat.le_div_iff_mul_le (by have := x.den_pos; omega), ← Nat.cast_le (α := ℚ)]
    push_cast
    rw [num, ← Rat.mul_den_eq_num x, shifted, mul_le_mul_iff_left₀ den]
  rw [← below]
  exact le_min_iff

/-- It is no larger than the number itself if that is less than one half above a count, or above all counts. -/
theorem Quantity.nearestCount_le_iff {x : ℚ} (nonneg : 0 ≤ x) :
    (nearestCount x : ℚ) ≤ x ↔ Int.fract x < 1 / 2 ∨ (largestCount : ℚ) ≤ x := by
  have nearest := le_nearestCount_iff nonneg
  obtain ⟨inside, close⟩ := (nearest (nearestCount x)).mp le_rfl
  have floor : (⌊x⌋₊ : ℚ) = x - Int.fract x := by
    rw [natCast_floor_eq_intCast_floor nonneg, Int.self_sub_fract]
  have next := Nat.lt_floor_add_one x
  constructor
  · intro below
    by_contra! both
    obtain ⟨half, countable⟩ := both
    have counted : ⌊x⌋₊ + 1 ≤ largestCount := by
      have less : ⌊x⌋₊ < largestCount := (Nat.floor_lt nonneg).mpr countable
      omega
    have above : ⌊x⌋₊ + 1 ≤ nearestCount x := (nearest _).mpr ⟨counted, by push_cast; linarith⟩
    have last : ((⌊x⌋₊ + 1 : ℕ) : ℚ) ≤ nearestCount x := Nat.cast_le.mpr above
    push_cast at last
    linarith
  · rintro (low | full)
    · have last : nearestCount x < ⌊x⌋₊ + 1 := by
        have less : (nearestCount x : ℚ) < (⌊x⌋₊ + 1 : ℕ) := by
          push_cast
          linarith
        exact_mod_cast less
      exact (Nat.le_floor_iff nonneg).mp (Nat.lt_succ_iff.mp last)
    · exact (Nat.cast_le.mpr inside).trans full

namespace Layout

variable (layout : Layout ℚ) (step : Nat)

/-! ## Heights -/

/-- A tick stands as high as a bar of its score. -/
theorem scoreTick_position :
    (layout.scoreTick step).position = layout.baseline - layout.scale (step * layout.tickStep) := by
  have plot := layout.baseline_sub_gap
  simp only [scoreTick, ofCount_eq]
  linarith

theorem scale_zero : layout.scale 0 = 0 := by
  rw [scale, zero_div, zero_mul]

variable {layout}

theorem scale_scoreMax (scoreMax : 0 < layout.scoreMax) : layout.scale layout.scoreMax = layout.plotHeight := by
  rw [scale, div_self scoreMax.ne', one_mul]

/-- Where the plot has a height, scores and heights have one order. -/
theorem scale_strictMono (scoreMax : 0 < layout.scoreMax) (height : 0 < layout.height)
    (plot : 0 < layout.plotFraction) : StrictMono layout.scale := fun _ _ less =>
  mul_lt_mul_of_pos_right (div_lt_div_of_pos_right less scoreMax) (mul_pos height plot)

/-! ## Reading a score -/

theorem scoreTicks_getElem? {step : Nat} (inside : step ≤ nearestCount (layout.scoreMax / layout.tickStep)) :
    layout.verticalAxis.ticks[step]? = some (layout.scoreTick step) := by
  rw [verticalAxis, List.getElem?_map, List.getElem?_range (Nat.lt_succ_of_le inside), Option.map_some]

theorem scoreTick_of_getElem? {tick : Tick ℚ} {step : Nat} (found : layout.verticalAxis.ticks[step]? = some tick) :
    tick = layout.scoreTick step := by
  rw [verticalAxis, List.getElem?_map, Option.map_eq_some_iff] at found
  obtain ⟨own, placed, rfl⟩ := found
  obtain ⟨-, rfl⟩ := List.getElem?_eq_some_iff.mp placed
  rw [List.getElem_range]

/-- Later ticks stand for greater scores, so they are higher up. -/
theorem scoreTicks_rise (scoreMax : 0 < layout.scoreMax) (tickStep : 0 < layout.tickStep)
    (height : 0 < layout.height) (plot : 0 < layout.plotFraction) :
    layout.verticalAxis.ticks.Pairwise fun tick later => later.position < tick.position := by
  rw [verticalAxis, List.pairwise_map]
  refine List.pairwise_lt_range.imp fun {step later} order => ?_
  have values : step * layout.tickStep < later * layout.tickStep :=
    mul_lt_mul_of_pos_right (Nat.cast_lt.mpr order) tickStep
  have heights := scale_strictMono scoreMax height plot values
  rw [scoreTick_position, scoreTick_position]
  linarith

theorem bar_y_of_mem {entries : List (Entry ℚ)} {bar : Bar ℚ} (member : bar ∈ (layout.project entries).bars) :
    bar.y = layout.baseline - layout.scale bar.score := by
  obtain ⟨placed, -, rfl⟩ := List.mem_map.mp member
  rfl

/-- **The vertical axis reads the bars.** The tick after a number of steps is labelled with their score, and a bar of
that score ends at the tick; the tick of zero is on the horizontal axis, and a bar of the top score ends where the
axis does. If the plot has a height, later ticks are higher up, and a bar reaches a tick just if its score does. -/
theorem vertical_axis_reads_bars (scoreMax : 0 < layout.scoreMax) (tickStep : 0 < layout.tickStep)
    (entries : List (Entry ℚ)) :
    let chart := layout.project entries
    (∀ (step : ℕ) tick, chart.vertical.ticks[step]? = some tick →
      tick.label = onePlace (step * layout.tickStep) ∧
        ∀ bar ∈ chart.bars, bar.score = step * layout.tickStep → bar.y = tick.position) ∧
      (∃ zero, chart.vertical.ticks[0]? = some zero ∧ zero.position = chart.horizontal.originY) ∧
      (∀ bar ∈ chart.bars, bar.score = layout.scoreMax → bar.y = chart.vertical.originY) ∧
      (0 < layout.height → 0 < layout.plotFraction →
        (chart.vertical.ticks.Pairwise fun tick later => later.position < tick.position) ∧
          ∀ (step : ℕ) tick, chart.vertical.ticks[step]? = some tick →
            ∀ bar ∈ chart.bars, bar.y ≤ tick.position ↔ step * layout.tickStep ≤ bar.score) := by
  intro chart
  refine ⟨fun step tick found => ?_, ⟨layout.scoreTick 0, ?_, ?_⟩, fun bar member top => ?_, fun height plot => ?_⟩
  · obtain rfl := scoreTick_of_getElem? found
    refine ⟨by simp only [scoreTick, ofCount_eq], fun bar member same => ?_⟩
    rw [bar_y_of_mem member, scoreTick_position, same]
  · simp [chart, project, verticalAxis]
  · rw [scoreTick_position, Nat.cast_zero, zero_mul, scale_zero, sub_zero]
    rfl
  · rw [bar_y_of_mem member, top, scale_scoreMax scoreMax]
    have plot := layout.baseline_sub_gap
    show layout.baseline - layout.plotHeight = layout.baselineGap
    linarith
  · refine ⟨scoreTicks_rise scoreMax tickStep height plot, fun step tick found bar member => ?_⟩
    obtain rfl := scoreTick_of_getElem? found
    rw [bar_y_of_mem member, scoreTick_position, sub_le_sub_iff_left]
    exact (scale_strictMono scoreMax height plot).le_iff_le

/-- The bar of three ends at the third step, and that of the top score where the axis does. -/
theorem vertical_axis_reads_bars_top :
    let layout : Layout ℚ := ⟨102, 60, 10, 2, 4, 1 / 2, 0, 1⟩
    let chart := layout.project [⟨"1", 4⟩, ⟨"2", 3⟩]
    0 < layout.scoreMax ∧ 0 < layout.tickStep ∧
      ∃ first second, chart.bars = [first, second] ∧ first.y = chart.vertical.originY ∧
        ∃ tick, chart.vertical.ticks[3]? = some tick ∧ second.y = tick.position := by
  intro layout chart
  have scoreMax : 0 < layout.scoreMax := by decide +kernel
  have tickStep : 0 < layout.tickStep := by decide +kernel
  obtain ⟨reads, -, top, -⟩ := vertical_axis_reads_bars scoreMax tickStep [⟨"1", 4⟩, ⟨"2", 3⟩]
  have third : chart.vertical.ticks[3]? = some (layout.scoreTick 3) := scoreTicks_getElem? (by decide +kernel)
  refine ⟨scoreMax, tickStep, _, _, rfl, top _ List.mem_cons_self rfl, _, third, ?_⟩
  exact (reads 3 _ third).2 _ (List.mem_cons_of_mem _ List.mem_cons_self) (by decide +kernel)

/-! ## The scores with a tick -/

variable (layout) in
/-- Whether the vertical axis has a tick for a score. -/
def HasTick (value : ℚ) : Prop :=
  ∃ (step : ℕ) (tick : Tick ℚ), layout.verticalAxis.ticks[step]? = some tick ∧ value = step * layout.tickStep

theorem hasTick_step_iff (tickStep : 0 < layout.tickStep) (step : ℕ) :
    layout.HasTick (step * layout.tickStep) ↔ step ≤ nearestCount (layout.scoreMax / layout.tickStep) := by
  constructor
  · rintro ⟨own, tick, found, same⟩
    have equal : (step : ℚ) = own := mul_right_cancel₀ tickStep.ne' same
    obtain ⟨inside, -⟩ := List.getElem?_eq_some_iff.mp found
    simp only [verticalAxis, List.length_map, List.length_range] at inside
    rw [Nat.cast_inj.mp equal]
    omega
  · intro inside
    exact ⟨step, layout.scoreTick step, scoreTicks_getElem? inside, rfl⟩

/-- There is a tick at every multiple of a step that is at most half a step above the top score. -/
theorem hasTick_iff (scoreMax : 0 < layout.scoreMax) (tickStep : 0 < layout.tickStep) (value : ℚ) :
    layout.HasTick value ↔ ∃ step : ℕ, step ≤ largestCount ∧ value = step * layout.tickStep ∧
      value ≤ layout.scoreMax + layout.tickStep / 2 := by
  have nearest := le_nearestCount_iff (div_nonneg scoreMax.le tickStep.le)
  have bound (step : ℕ) : (step : ℚ) ≤ layout.scoreMax / layout.tickStep + 1 / 2 ↔
      step * layout.tickStep ≤ layout.scoreMax + layout.tickStep / 2 := by
    rw [← mul_le_mul_iff_left₀ tickStep, add_mul, div_mul_cancel₀ _ tickStep.ne', one_div_mul_eq_div]
  constructor
  · rintro ⟨step, tick, found, rfl⟩
    obtain ⟨countable, close⟩ := (nearest step).mp ((hasTick_step_iff tickStep step).mp ⟨step, tick, found, rfl⟩)
    exact ⟨step, countable, rfl, (bound step).mp close⟩
  · rintro ⟨step, countable, rfl, close⟩
    exact (hasTick_step_iff tickStep step).mpr ((nearest step).mpr ⟨countable, (bound step).mpr close⟩)

theorem countable_iff (scoreMax : 0 < layout.scoreMax) (tickStep : 0 < layout.tickStep) :
    (∀ step : ℕ, step * layout.tickStep ≤ layout.scoreMax → layout.HasTick (step * layout.tickStep)) ↔
      layout.scoreMax / layout.tickStep < (largestCount + 1 : ℕ) := by
  have nearest := le_nearestCount_iff (div_nonneg scoreMax.le tickStep.le)
  constructor
  · intro complete
    by_contra! uncountable
    have last := complete _ ((le_div_iff₀ tickStep).mp uncountable)
    have counted := (nearest _).mp ((hasTick_step_iff tickStep _).mp last)
    omega
  · intro countable step inside
    have below := (le_div_iff₀ tickStep).mpr inside
    have counted : step < largestCount + 1 := Nat.cast_lt.mp (below.trans_lt countable)
    exact (hasTick_step_iff tickStep step).mpr ((nearest step).mpr ⟨by omega, by linarith⟩)

theorem hasTick_le_iff (scoreMax : 0 < layout.scoreMax) (tickStep : 0 < layout.tickStep) :
    (∀ value, layout.HasTick value → value ≤ layout.scoreMax) ↔
      Int.fract (layout.scoreMax / layout.tickStep) < 1 / 2 ∨
        (largestCount : ℚ) ≤ layout.scoreMax / layout.tickStep := by
  rw [← nearestCount_le_iff (div_nonneg scoreMax.le tickStep.le)]
  constructor
  · intro inside
    exact (le_div_iff₀ tickStep).mpr (inside _ ((hasTick_step_iff tickStep _).mpr le_rfl))
  · rintro below value ⟨step, tick, found, rfl⟩
    have counted := (hasTick_step_iff tickStep step).mp ⟨step, tick, found, rfl⟩
    exact (le_div_iff₀ tickStep).mp ((Nat.cast_le.mpr counted).trans below)

/-- A tick is as far below the top of the plot as its score is below the top score. -/
theorem forall_ticks_iff (scoreMax : 0 < layout.scoreMax) (height : 0 < layout.height)
    (plot : 0 < layout.plotFraction) (excess : ℚ) :
    (∀ tick ∈ layout.verticalAxis.ticks, layout.baselineGap ≤ tick.position + layout.scale excess) ↔
      ∀ value, layout.HasTick value → value ≤ layout.scoreMax + excess := by
  have gap := layout.baseline_sub_gap
  have order := scale_strictMono scoreMax height plot
  have sum : layout.scale (layout.scoreMax + excess) = layout.plotHeight + layout.scale excess := by
    rw [← scale_scoreMax scoreMax]
    simp only [scale]
    ring
  have each (step : ℕ) : layout.baselineGap ≤ (layout.scoreTick step).position + layout.scale excess ↔
      step * layout.tickStep ≤ layout.scoreMax + excess := by
    rw [scoreTick_position, ← order.le_iff_le (b := layout.scoreMax + excess), sum]
    constructor <;> intro <;> linarith
  constructor
  · rintro inside value ⟨step, tick, found, rfl⟩
    have member := List.mem_of_getElem? found
    rw [scoreTick_of_getElem? found] at member
    exact (each step).mp (inside _ member)
  · intro inside tick member
    obtain ⟨step, found⟩ := List.mem_iff_getElem?.mp member
    have below := inside _ ⟨step, tick, found, rfl⟩
    rw [scoreTick_of_getElem? found]
    exact (each step).mpr below

/-- **The vertical axis has a tick at every step up to half a step above the top score**, as far as steps can be
counted. So no step of the range of scores is left out; and none above it is taken in, neither as a score nor as a place
above the plot, just if the top score is less than half a step above a multiple. -/
theorem ticks_at_multiples (scoreMax : 0 < layout.scoreMax) (tickStep : 0 < layout.tickStep) :
    (∀ value, layout.HasTick value ↔ ∃ step : ℕ, step ≤ largestCount ∧ value = step * layout.tickStep ∧
        value ≤ layout.scoreMax + layout.tickStep / 2) ∧
      ((∀ step : ℕ, step * layout.tickStep ≤ layout.scoreMax → layout.HasTick (step * layout.tickStep)) ↔
        layout.scoreMax / layout.tickStep < (largestCount + 1 : ℕ)) ∧
      ((∀ value, layout.HasTick value → value ≤ layout.scoreMax) ↔
        Int.fract (layout.scoreMax / layout.tickStep) < 1 / 2 ∨
          (largestCount : ℚ) ≤ layout.scoreMax / layout.tickStep) ∧
      (0 < layout.height → 0 < layout.plotFraction →
        (∀ tick ∈ layout.verticalAxis.ticks,
          layout.baselineGap ≤ tick.position + layout.scale (layout.tickStep / 2)) ∧
        ((∀ tick ∈ layout.verticalAxis.ticks, layout.baselineGap ≤ tick.position) ↔
          Int.fract (layout.scoreMax / layout.tickStep) < 1 / 2 ∨
            (largestCount : ℚ) ≤ layout.scoreMax / layout.tickStep)) := by
  have values := hasTick_iff scoreMax tickStep
  have none_above := hasTick_le_iff scoreMax tickStep
  refine ⟨values, countable_iff scoreMax tickStep, none_above, fun height plot => ⟨?_, ?_⟩⟩
  · refine (forall_ticks_iff scoreMax height plot _).mpr fun value has => ?_
    obtain ⟨step, -, rfl, close⟩ := (values value).mp has
    exact close
  · have exact_top := forall_ticks_iff scoreMax height plot 0
    rw [scale_zero] at exact_top
    simp only [add_zero] at exact_top
    exact exact_top.trans none_above

/-- A step of two on a range of five is exactly half a step off, so six has a tick and eight has none. -/
theorem ticks_at_multiples_tie :
    let layout : Layout ℚ := { (standard : Layout ℚ) with tickStep := 2 }
    0 < layout.scoreMax ∧ 0 < layout.tickStep ∧ layout.HasTick 6 ∧ ¬layout.HasTick 8 := by
  intro layout
  have scoreMax : 0 < layout.scoreMax := by decide +kernel
  have tickStep : 0 < layout.tickStep := by decide +kernel
  obtain ⟨values, -⟩ := ticks_at_multiples scoreMax tickStep
  refine ⟨scoreMax, tickStep, (values 6).mpr ⟨3, by decide, by decide +kernel, by decide +kernel⟩, fun has => ?_⟩
  obtain ⟨step, -, -, close⟩ := (values 8).mp has
  exact absurd close (by decide +kernel)

/-- A step of three on a range of five has a tick for six, which stands above the plot. -/
theorem tick_above_plot :
    let layout : Layout ℚ := { (standard : Layout ℚ) with tickStep := 3 }
    0 < layout.scoreMax ∧ 0 < layout.tickStep ∧ 0 < layout.height ∧ 0 < layout.plotFraction ∧
      layout.plotFraction ≤ 1 ∧
      ¬(∀ value, layout.HasTick value ↔ ∃ step : ℕ, value = step * layout.tickStep ∧ value ≤ layout.scoreMax) ∧
      ¬∀ tick ∈ layout.verticalAxis.ticks, layout.baselineGap ≤ tick.position := by
  intro layout
  have second : layout.verticalAxis.ticks[2]? = some (layout.scoreTick 2) := scoreTicks_getElem? (by decide +kernel)
  refine ⟨by decide +kernel, by decide +kernel, by decide +kernel, by decide +kernel, by decide +kernel, ?_, ?_⟩
  · intro exact_values
    obtain ⟨step, same, inside⟩ := (exact_values _).mp ⟨2, _, second, rfl⟩
    exact absurd inside (by decide +kernel)
  · intro inside
    exact absurd (inside _ (List.mem_of_getElem? second)) (by decide +kernel)

end Layout
end BookCatalog.Chart
