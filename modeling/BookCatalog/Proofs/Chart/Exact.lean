import Mathlib
import BookCatalog.Chart.Model

/-!
The geometry of a chart in exact numbers. With rational numbers nothing is rounded, so each part of the
geometry is the formula that it stands for, whatever the order of the operations.
-/
namespace BookCatalog.Chart

open Quantity Ranking

theorem Quantity.ofCount_eq (count : Nat) : (ofCount count : ℚ) = count := by
  show Rat.ofScientific count false 0 = count
  rw [Rat.ofScientific_false_def]
  simp

namespace Layout

variable (layout : Layout ℚ) (count index : Nat) (entry : Entry ℚ)

theorem baselineGap_eq : layout.baselineGap = layout.height * (1 - layout.plotFraction) / 2 := by
  simp only [baselineGap]
  norm_num

/-- What lies between the two gaps is the height that the scores span. -/
theorem baseline_sub_gap : layout.baseline - layout.baselineGap = layout.plotHeight := by
  simp only [baseline, baselineGap_eq, plotHeight]
  ring

theorem slot_eq : layout.slot count = (layout.width - layout.axisX - layout.axisGap) / count := by
  rw [slot, ofCount_eq]

theorem bar_x :
    (layout.bar count index entry).x = layout.axisX + layout.axisGap + layout.slot count * index := by
  simp only [bar, slotStart, ofCount_eq]
  ring

theorem bar_width :
    (layout.bar count index entry).width = layout.slot count * (1 - layout.paddingFraction) := by
  simp only [bar, padding]
  ring

/-- A bar stands on the horizontal axis. -/
theorem bar_bottom :
    (layout.bar count index entry).y + (layout.bar count index entry).height = layout.baseline := by
  simp only [bar]
  ring

theorem bars_getElem? {α : Type} [Quantity α] (layout : Layout α) (entries : List (Entry α)) (index : Nat) :
    (layout.project entries).bars[index]? = entries[index]?.map (layout.bar entries.length index) := by
  simp [project, List.getElem?_zipIdx, Function.comp_def]

end Layout
end BookCatalog.Chart
