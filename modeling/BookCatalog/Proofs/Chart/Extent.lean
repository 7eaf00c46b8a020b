import BookCatalog.Proofs.Chart.Drawing
import BookCatalog.Proofs.Double.Size

/-!
How far a chart extends. Its own measures are small, and a count is at least one where the width is divided by it, so
the places that no score takes part in are finite for every number of entries that can be counted. The other places
are as finite as the height of the score is: what a finite height is taken from, or what is taken from the result, is
too small to matter.
-/
namespace BookCatalog.Chart

open Double

/-- A bar has a top and a height to draw if both are finite. -/
theorem Bar.isSome_extent? (bar : Bar Float) : bar.extent?.isSome = bar.isDrawn := by
  rw [extent?, isDrawn]
  split_ifs <;> simp_all

/-! ## Counts -/

variable {count index : ℕ}

theorem ofCount_isWithin (fits : count ≤ largestCount) : IsWithin 64 (Quantity.ofCount count : Float) :=
  ofNat_isWithin (fits.trans (by decide)) (by norm_num)

theorem one_le_amount_ofCount (pos : 0 < count) (fits : count ≤ largestCount) :
    1 ≤ amount (parts (Quantity.ofCount count : Float)) :=
  one_le_amount_ofNat pos (ofCount_isWithin fits).finite

namespace Layout

/-- A shape whose own measures are at most 1024, and which leaves the bars some room. -/
structure IsBounded (layout : Layout Float) : Prop where
  width : IsWithin 10 layout.width
  axisX : IsWithin 10 layout.axisX
  axisGap : IsWithin 10 layout.axisGap
  room : IsWithin 10 (layout.width - layout.axisX - layout.axisGap)
  room_nonneg : 0 ≤ amount (parts (layout.width - layout.axisX - layout.axisGap))
  paddingFraction : IsWithin 0 layout.paddingFraction
  baselineGap : IsWithin 10 layout.baselineGap
  baseline : IsWithin 10 layout.baseline
  baseline_nonneg : 0 ≤ amount (parts layout.baseline)
  scoreTicks : ∀ tick ∈ layout.verticalAxis.ticks, IsWithin 10 tick.position

theorem standard_isBounded : (standard : Layout Float).IsBounded where
  width := by decide +kernel
  axisX := by decide +kernel
  axisGap := by decide +kernel
  room := by decide +kernel
  room_nonneg := by decide +kernel
  paddingFraction := by decide +kernel
  baselineGap := by decide +kernel
  baseline := by decide +kernel
  baseline_nonneg := by decide +kernel
  scoreTicks := by decide +kernel

/-- Such a shape takes any number of entries that can be counted. -/
structure Takes (layout : Layout Float) (count : ℕ) : Prop extends layout.IsBounded where
  pos : 0 < count
  fits : count ≤ largestCount

/-! ## Places along the chart -/

section

variable {layout : Layout Float} (takes : layout.Takes count) (entry : Ranking.Entry Float)
include takes

theorem Takes.one_le_count : 1 ≤ amount (parts (Quantity.ofCount count : Float)) :=
  one_le_amount_ofCount takes.pos takes.fits

theorem Takes.slot : IsWithin 10 (layout.slot count) :=
  takes.room.div (ofCount_isWithin takes.fits).finite takes.one_le_count (by norm_num)

theorem Takes.slot_nonneg : 0 ≤ amount (parts (layout.slot count)) := by
  have large := takes.one_le_count
  have divided := div_approximates takes.room.finite (ofCount_isWithin takes.fits).finite (by linarith)
  exact divided.nonneg takes.slot.finite (div_nonneg takes.room_nonneg (by linarith))

theorem Takes.padding : IsWithin 10 (layout.padding count) :=
  takes.slot.mul takes.paddingFraction (by norm_num)

/-- What stays empty is no more than the slot. -/
theorem Takes.padding_le : amount (parts (layout.padding count)) ≤ amount (parts (layout.slot count)) := by
  have product := mul_approximates takes.slot.finite takes.paddingFraction.finite
  refine (product.rounds takes.padding.finite).mono (rounds_amount takes.slot.finite) ?_
  have share := (abs_le.mp takes.paddingFraction.small).2
  rw [pow_zero] at share
  exact mul_le_of_le_one_right takes.slot_nonneg share

theorem Takes.slotStart (inside : index < count) : IsWithin 74 (layout.slotStart count index) :=
  takes.slot.mul (ofCount_isWithin (inside.le.trans takes.fits)) (by norm_num)

theorem Takes.bar_x (inside : index < count) : IsWithin 76 (layout.bar count index entry).x :=
  ((takes.slotStart inside).add takes.axisX (by norm_num)).add takes.axisGap (by norm_num)

theorem Takes.bar_width : IsWithin 11 (layout.bar count index entry).width :=
  takes.slot.sub takes.padding (by norm_num)

theorem Takes.bar_width_nonneg : 0 ≤ amount (parts (layout.bar count index entry).width) := by
  have within : IsWithin 11 (layout.bar count index entry).width := takes.bar_width entry
  have left := sub_approximates takes.slot.finite takes.padding.finite
  exact left.nonneg within.finite (sub_nonneg.mpr takes.padding_le)

theorem Takes.label_x (inside : index < count) : IsWithin 76 (layout.label count index entry).x :=
  ((takes.slotStart inside).add takes.padding (by norm_num)).add takes.axisX (by norm_num)

theorem Takes.tickSpan : IsWithin 13 (layout.tickSpan count) := by
  have half : IsWithin 0 (0.5 : Float) := by decide +kernel
  have middle := takes.slot.mul half (by norm_num)
  exact ((takes.width.sub takes.axisX (by norm_num)).sub middle (by norm_num)).sub takes.axisX (by norm_num)

theorem Takes.tickOffset (inside : index < count) : IsWithin 77 (layout.tickOffset count index) := by
  rw [Layout.tickOffset]
  split_ifs with lone
  · have two : (parts (2.0 : Float)).isFinite ∧ 1 ≤ amount (parts (2.0 : Float)) := by decide +kernel
    exact (takes.tickSpan.div two.1 two.2 (by norm_num)).mono (by norm_num)
  · have pos := takes.pos
    have fits : count - 1 ≤ largestCount := (Nat.sub_le _ _).trans takes.fits
    have step := takes.tickSpan.div (ofCount_isWithin fits).finite (one_le_amount_ofCount (by omega) fits)
      (by norm_num)
    exact step.mul (ofCount_isWithin (inside.le.trans takes.fits)) (by norm_num)

theorem Takes.entryTick (inside : index < count) : IsWithin 78 (layout.entryTick count index entry).position :=
  (takes.axisX.add takes.axisX (by norm_num)).add (takes.tickOffset inside) (by norm_num)

end

/-! ## Places along a score -/

section

variable {layout : Layout Float} {entry : Ranking.Entry Float}

theorem IsBounded.bar_y_isFinite_iff (bounded : layout.IsBounded) :
    (layout.bar count index entry).y.isFinite = true ↔ (layout.scale entry.score).isFinite = true :=
  const_sub_isFinite_iff bounded.baseline (by norm_num)

/-- A bar is drawn if its score has a finite height. -/
theorem IsBounded.bar_isDrawn (bounded : layout.IsBounded) :
    (layout.bar count index entry).isDrawn = (layout.scale entry.score).isFinite := by
  rw [Bar.isDrawn, Bool.eq_iff_iff, Bool.and_eq_true, bounded.bar_y_isFinite_iff]
  exact and_self_iff

/-- So is a label, which stands a little above the bar. -/
theorem Takes.label_isDrawn (takes : layout.Takes count) (inside : index < count) :
    (layout.label count index entry).isDrawn = (layout.scale entry.score).isFinite := by
  have gap : IsWithin 1 (2.0 : Float) := by decide +kernel
  have place : (layout.label count index entry).x.isFinite = true := (takes.label_x entry inside).finite
  have height : (layout.label count index entry).y.isFinite = true ↔
      (layout.bar count index entry).y.isFinite = true := sub_const_isFinite_iff gap (by norm_num)
  rw [Label.isDrawn, place, Bool.true_and, Bool.eq_iff_iff, height, takes.bar_y_isFinite_iff]

/-- A bar that hangs down begins at the horizontal axis again, as far as rounding allows. -/
theorem IsBounded.hung_isFinite (bounded : layout.IsBounded) {height : Float} (finite : (parts height).isFinite)
    (below : amount (parts height) ≤ 0) : (parts (layout.baseline - height + height)).isFinite := by
  have finite' : (parts (layout.baseline - height)).isFinite :=
    (const_sub_isFinite_iff bounded.baseline (by norm_num)).mpr finite
  have top := (sub_approximates bounded.baseline.finite finite).nonneg finite'
    (sub_nonneg.mpr (below.trans bounded.baseline_nonneg))
  -- What is added has the other sign, so the sum is between the two.
  have least := (abs_le.mp (abs_amount_le finite)).1
  have most := (abs_le.mp (abs_amount_le finite')).2
  exact (add_approximates finite' finite).isFinite_of_le (abs_le.mpr ⟨by linarith, by linarith⟩)

/-- A bar is drawn at a finite place, and with a height that is not below zero. -/
theorem IsBounded.extent (bounded : layout.IsBounded) {top height : Float}
    (taken : (layout.bar count index entry).extent? = some (top, height)) :
    top.isFinite = true ∧ height.isFinite = true ∧ 0 ≤ amount (parts height) := by
  have drawn : (layout.bar count index entry).isDrawn = true := by
    rw [← Bar.isSome_extent?, taken]
    rfl
  have finite : (layout.scale entry.score).isFinite = true := bounded.bar_isDrawn.symm.trans drawn
  rw [Bar.isDrawn] at drawn
  rw [Bar.extent?, if_pos drawn] at taken
  split_ifs at taken with below <;> obtain ⟨rfl, rfl⟩ := Prod.mk.inj (Option.some.inj taken)
  case pos =>
    have negative := (lt_zero_iff finite).mp below
    obtain ⟨finite', turned⟩ := neg_parts finite
    exact ⟨bounded.hung_isFinite finite negative.le, finite', (neg_pos.mpr negative).le.trans_eq turned.symm⟩
  case neg =>
    have nonneg := not_lt.mp (mt (lt_zero_iff finite).mpr below)
    exact ⟨bounded.bar_y_isFinite_iff.mpr finite, finite, nonneg⟩

end

end Layout

end BookCatalog.Chart
