import BookCatalog.Proofs.Chart.Tiling

/-!
Where the ticks of the horizontal axis stand. The bars have equal slots behind the gap at the vertical axis. The
ticks are spread evenly, but over another stretch: the first stands as far behind the axis as the axis is from the
edge, and the last in the middle of the last slot. So the distance of a tick from the start of its own bar goes evenly
from that of the first to half a slot, and a first bar that is narrower than its tick is far stands beside it.
-/
namespace BookCatalog.Chart.Layout

open Ranking

variable (layout : Layout ℚ) (entry : Entry ℚ) {count index behind : Nat}

theorem ticks_getElem? {α : Type} [Quantity α] (layout : Layout α) (entries : List (Entry α)) (index : Nat) :
    (layout.project entries).horizontal.ticks[index]? =
      entries[index]?.map (layout.entryTick entries.length index) := by
  simp [project, horizontalAxis, List.getElem?_zipIdx, Function.comp_def]

/-- How far a tick is from the start of its bar. -/
def inset (count index : Nat) : ℚ :=
  (layout.entryTick count index entry).position - (layout.bar count index entry).x

/-- The stretch of the ticks ends in the middle of the last slot. -/
theorem tickSpan_eq (counted : count ≠ 0) :
    layout.tickSpan count =
      layout.slot count * count - layout.slot count / 2 - (layout.axisX - layout.axisGap) := by
  rw [slot_mul counted]
  simp only [tickSpan]
  norm_num
  ring

/-- A lone tick is between the two distances. -/
theorem inset_lone : layout.inset entry 1 0 = ((layout.axisX - layout.axisGap) + layout.slot 1 / 2) / 2 := by
  have span := layout.tickSpan_eq one_ne_zero
  rw [inset, bar_x]
  simp only [entryTick, tickOffset, ↓reduceIte, span]
  norm_num
  ring

/-- Of several ticks, the distance goes evenly from that of the first to that of the last. -/
theorem inset_mul (several : index + behind ≠ 0) :
    layout.inset entry (index + behind + 1) index * (index + behind : ℕ) =
      (layout.axisX - layout.axisGap) * behind + layout.slot (index + behind + 1) / 2 * index := by
  have span := layout.tickSpan_eq (index + behind).succ_ne_zero
  have many : index + behind + 1 ≠ 1 := by omega
  have steps : ((index + behind : ℕ) : ℚ) ≠ 0 := Nat.cast_ne_zero.mpr several
  rw [inset, bar_x]
  simp only [entryTick, tickOffset, if_neg many, Quantity.ofCount_eq, Nat.add_sub_cancel, Nat.succ_eq_add_one] at span ⊢
  rw [span]
  field_simp
  push_cast
  ring

/-! ## In the usual shape -/

theorem standard_slot (count : Nat) : (standard : Layout ℚ).slot count = 965 / count := by
  rw [slot_eq]
  norm_num [standard]

theorem standard_width (count index : Nat) : ((standard : Layout ℚ).bar count index entry).width = 772 / count := by
  rw [bar_width, standard_slot]
  norm_num [standard]
  ring

theorem standard_axisX_sub_gap : (standard : Layout ℚ).axisX - (standard : Layout ℚ).axisGap = 25 := by
  norm_num [standard]

/-- No tick stands in front of its bar. -/
theorem standard_inset_nonneg (index behind : Nat) :
    0 ≤ (standard : Layout ℚ).inset entry (index + behind + 1) index := by
  by_cases lone : index + behind = 0
  · obtain ⟨rfl, rfl⟩ := Nat.add_eq_zero_iff.mp lone
    rw [inset_lone, standard_axisX_sub_gap, standard_slot]
    norm_num
  · have spread := inset_mul standard entry lone
    have others : (0 : ℚ) < (index + behind : ℕ) := Nat.cast_pos.mpr (Nat.pos_of_ne_zero lone)
    rw [standard_axisX_sub_gap, standard_slot] at spread
    refine nonneg_of_mul_nonneg_left ?_ others
    rw [spread]
    positivity

/-- Whether a tick stands behind the end of its bar depends on how many bars are in front of its own and behind it. -/
theorem standard_inset_le_iff (index behind : Nat) :
    (standard : Layout ℚ).inset entry (index + behind + 1) index ≤
        (standard.bar (index + behind + 1) index entry).width ↔
      50 * (index + behind + 1) * behind ≤ 193 * (3 * index + 8 * behind) := by
  rw [standard_width]
  by_cases lone : index + behind = 0
  · obtain ⟨rfl, rfl⟩ := Nat.add_eq_zero_iff.mp lone
    rw [inset_lone, standard_axisX_sub_gap, standard_slot]
    norm_num
  · have spread := inset_mul standard entry lone
    have others : (0 : ℚ) < (index + behind : ℕ) := Nat.cast_pos.mpr (Nat.pos_of_ne_zero lone)
    have count : (0 : ℚ) < (index + behind + 1 : ℕ) := Nat.cast_pos.mpr (Nat.succ_pos _)
    rw [standard_axisX_sub_gap, standard_slot] at spread
    rw [← mul_le_mul_iff_left₀ others, spread, ← mul_le_mul_iff_left₀ count, ← Nat.cast_le (α := ℚ)]
    field_simp
    push_cast
    constructor <;> intro fits <;> linarith

/-- **Ticks stand under their bars as long as there are at most thirty.** In the usual shape there is a tick for each
bar, and none stands in front of its bar. On a chart of any length, a tick stands before the end of its bar exactly if
the bars in front of its own and behind it are so few; the last one always does, and the first one up to thirty bars. -/
theorem ticks_stand_under_bars (entries : List (Entry ℚ)) {index : Nat} (inside : index < entries.length) :
    let chart := (standard : Layout ℚ).project entries
    let behind := entries.length - 1 - index
    ∃ bar tick, chart.bars[index]? = some bar ∧ chart.horizontal.ticks[index]? = some tick ∧
      bar.x ≤ tick.position ∧
      (tick.position ≤ bar.x + bar.width ↔
        50 * entries.length * behind ≤ 193 * (3 * index + 8 * behind)) ∧
      (entries.length ≤ 30 → tick.position ≤ bar.x + bar.width) := by
  intro chart behind
  have length : entries.length = index + behind + 1 := by omega
  refine ⟨standard.bar entries.length index entries[index], standard.entryTick entries.length index entries[index],
    ?_, ?_, ?_⟩
  · rw [bars_getElem?, List.getElem?_eq_getElem inside, Option.map_some]
  · rw [ticks_getElem?, List.getElem?_eq_getElem inside, Option.map_some]
  have front := standard_inset_nonneg entries[index] index behind
  have within := standard_inset_le_iff entries[index] index behind
  rw [inset, ← length] at front within
  rw [sub_le_iff_le_add'] at within
  refine ⟨sub_nonneg.mp front, within, fun few => within.mpr ?_⟩
  calc
    50 * entries.length * behind ≤ 50 * 30 * behind := by gcongr
    _ ≤ 193 * (3 * index + 8 * behind) := by omega

/-- The first of thirty bars is just wide enough for its tick. -/
theorem ticks_stand_under_bars_thirty :
    let chart := (standard : Layout ℚ).project (List.replicate 30 ⟨"1", 5⟩)
    ∃ bar tick, chart.bars[0]? = some bar ∧ chart.horizontal.ticks[0]? = some tick ∧
      bar.x ≤ tick.position ∧ tick.position ≤ bar.x + bar.width ∧ tick.position = 60 := by
  obtain ⟨bar, tick, bar_at, tick_at, front, -, few⟩ :=
    ticks_stand_under_bars (List.replicate 30 ⟨"1", 5⟩) (show 0 < 30 by decide)
  refine ⟨bar, tick, bar_at, tick_at, front, few (by decide), ?_⟩
  rw [ticks_getElem?, List.getElem?_replicate_of_lt (by decide), Option.map_some, Option.some_inj] at tick_at
  rw [← tick_at]
  decide +kernel

/-- The first of thirty-one bars is not. -/
theorem first_tick_beside_bar :
    let chart := (standard : Layout ℚ).project (List.replicate 31 ⟨"1", 5⟩)
    ∃ bar tick, chart.bars[0]? = some bar ∧ chart.horizontal.ticks[0]? = some tick ∧
      ¬(bar.x ≤ tick.position ∧ tick.position ≤ bar.x + bar.width) := by
  refine ⟨_, _, rfl, rfl, ?_⟩
  decide +kernel

end BookCatalog.Chart.Layout
