import Mathlib

/-!
Rounding exact numbers to 53 binary places, but to no more than 1074 behind the point. The result is the
nearest multiple of a power of two that grows with the number, and of two that are equally near the even one.
Larger numbers do not round to smaller ones: within one scale because nearest integers do not cross, and from
one scale to the next because the power of two between them belongs to both.
-/
namespace BookCatalog.Double

/-- An integer that is nearest to a number, and even if another one is as near. -/
structure IsNearest (x : ℚ) (n : ℤ) : Prop where
  close : |x - n| ≤ 1 / 2
  even : |x - n| = 1 / 2 → Even n

/-- The exponent of the power of two that a number is counted in: with 53 places the number fits, and with fewer
it would not, unless the exponent is the least one. -/
structure IsScale (x : ℚ) (exponent : ℤ) : Prop where
  least : -1074 ≤ exponent
  fits : |x| < 2 ^ (exponent + 53)
  full : 2 ^ (exponent + 52) ≤ |x| ∨ exponent = -1074

/-- A number rounds to the nearest multiple on its scale. -/
inductive Rounds (x : ℚ) : ℚ → Prop where
  | nearest {exponent mantissa : ℤ} (scale : IsScale x exponent)
      (nearest : IsNearest (x / 2 ^ exponent) mantissa) : Rounds x (mantissa * 2 ^ exponent)

variable {x y value other : ℚ} {n k e f : ℤ}

theorem two_zpow_pos (e : ℤ) : (0 : ℚ) < 2 ^ e := zpow_pos two_pos e

theorem two_zpow_le (order : e ≤ f) : (2 : ℚ) ^ e ≤ 2 ^ f := zpow_le_zpow_right₀ one_le_two order

/-- A multiple reaches a power of two that has so many more places if its factor has them. -/
theorem two_zpow_le_mul_iff (n : ℤ) (places : ℕ) : 2 ^ (e + places) ≤ (n : ℚ) * 2 ^ e ↔ 2 ^ places ≤ n := by
  rw [zpow_add₀ two_ne_zero, mul_comm (2 ^ e), mul_le_mul_iff_left₀ (two_zpow_pos e), zpow_natCast]
  exact_mod_cast Iff.rfl

theorem mul_le_two_zpow_iff (n : ℤ) (places : ℕ) : (n : ℚ) * 2 ^ e ≤ 2 ^ (e + places) ↔ n ≤ 2 ^ places := by
  rw [zpow_add₀ two_ne_zero, mul_comm (2 ^ e), mul_le_mul_iff_left₀ (two_zpow_pos e), zpow_natCast]
  exact_mod_cast Iff.rfl

/-! ## Nearest integers -/

theorem isNearest_intCast (n : ℤ) : IsNearest n n := by
  constructor <;> norm_num

theorem isNearest_of_lt (close : |x - n| < 1 / 2) : IsNearest x n :=
  ⟨close.le, fun tie => absurd tie close.ne⟩

theorem IsNearest.neg (nearest : IsNearest x n) : IsNearest (-x) (-n) := by
  have turned : |-x - (-n : ℤ)| = |x - n| := by
    rw [Int.cast_neg, neg_sub_neg, abs_sub_comm]
  exact ⟨turned ▸ nearest.close, fun tie => (nearest.even (turned ▸ tie)).neg⟩

/-- Nearest integers do not cross. If they did, both numbers would lie halfway between two neighbours, one of
which is odd. -/
theorem IsNearest.mono (nearest : IsNearest x n) (nearest' : IsNearest y k) (order : x ≤ y) : n ≤ k := by
  by_contra crossed
  have next : (k : ℚ) + 1 ≤ n := by exact_mod_cast not_le.mp crossed
  obtain ⟨below, -⟩ := abs_le.mp nearest.close
  obtain ⟨-, above⟩ := abs_le.mp nearest'.close
  have halfway : x - n = -(1 / 2) := by linarith
  have halfway' : y - k = 1 / 2 := by linarith
  have even : Even n := nearest.even (by rw [halfway]; norm_num)
  have even' : Even k := nearest'.even (by rw [halfway']; norm_num)
  have neighbours : n = k + 1 := by
    have exact : (n : ℚ) = k + 1 := by linarith
    exact_mod_cast exact
  rw [neighbours] at even
  exact Int.even_add_one.mp even even'

/-! ## Scales -/

theorem IsScale.neg (scale : IsScale x e) : IsScale (-x) e := by
  constructor
  · exact scale.least
  · rw [abs_neg]
    exact scale.fits
  · rw [abs_neg]
    exact scale.full

/-- On the coarser one of two scales, no places are missing. -/
theorem IsScale.full_of_finer (scale : IsScale x e) (scale' : IsScale y f) (finer : e < f) :
    2 ^ (f + 52) ≤ |y| :=
  scale'.full.resolve_right (by have := scale.least; omega)

/-- Magnitudes on different scales are ordered as their scales are. -/
theorem IsScale.lt_of_finer (scale : IsScale x e) (scale' : IsScale y f) (finer : e < f) : |x| < |y| :=
  calc
    |x| < 2 ^ (e + 53) := scale.fits
    _ ≤ 2 ^ (f + 52) := two_zpow_le (by omega)
    _ ≤ |y| := scale.full_of_finer scale' finer

/-! ## Rounding -/

/-- A number that reaches a power of two on its scale rounds to one that reaches it. -/
theorem IsNearest.reaches (nearest : IsNearest (x / 2 ^ e) n) (places : ℕ) (reached : 2 ^ (e + places) ≤ x) :
    2 ^ places ≤ n := by
  refine (isNearest_intCast (2 ^ places)).mono nearest ?_
  rw [le_div_iff₀ (two_zpow_pos e)]
  rw [zpow_add₀ two_ne_zero, mul_comm (2 ^ e), zpow_natCast] at reached
  exact_mod_cast reached

/-- One that does not exceed it rounds to one that does not. -/
theorem IsNearest.inside (nearest : IsNearest (x / 2 ^ e) n) (places : ℕ) (inside : x ≤ 2 ^ (e + places)) :
    n ≤ 2 ^ places := by
  refine nearest.mono (isNearest_intCast (2 ^ places)) ?_
  rw [div_le_iff₀ (two_zpow_pos e)]
  rw [zpow_add₀ two_ne_zero, mul_comm (2 ^ e), zpow_natCast] at inside
  exact_mod_cast inside

/-- A number on a finer scale than a larger one rounds to at most the power of two between the scales, and the
larger one to at least that. -/
theorem rounded_le_of_finer (scale : IsScale x e) (nearest : IsNearest (x / 2 ^ e) n) (scale' : IsScale y f)
    (nearest' : IsNearest (y / 2 ^ f) k) (order : x ≤ y) (finer : e < f) :
    (n : ℚ) * 2 ^ e ≤ k * 2 ^ f := by
  obtain ⟨below, above⟩ := abs_lt.mp scale.fits
  have reached : 2 ^ (f + 52) ≤ y := by
    have between : (2 : ℚ) ^ (e + 53) ≤ 2 ^ (f + 52) := two_zpow_le (by omega)
    rcases le_abs'.mp (scale.full_of_finer scale' finer) with low | high
    · linarith
    · exact high
  calc
    (n : ℚ) * 2 ^ e ≤ 2 ^ (e + 53) := (mul_le_two_zpow_iff n 53).mpr (nearest.inside 53 above.le)
    _ ≤ 2 ^ (f + 52) := two_zpow_le (by omega)
    _ ≤ k * 2 ^ f := (two_zpow_le_mul_iff k 52).mpr (nearest'.reaches 52 reached)

theorem Rounds.neg (rounds : Rounds x value) : Rounds (-x) (-value) := by
  cases rounds with
  | @nearest e n scale nearest =>
    have turned : IsNearest (-x / 2 ^ e) (-n) := by
      rw [neg_div]
      exact nearest.neg
    rw [← neg_mul, ← Int.cast_neg]
    exact .nearest scale.neg turned

/-- **Rounding keeps the order.** -/
theorem Rounds.mono (rounds : Rounds x value) (rounds' : Rounds y other) (order : x ≤ y) : value ≤ other := by
  cases rounds with
  | @nearest e n scale nearest =>
    cases rounds' with
    | @nearest f k scale' nearest' =>
      rcases lt_trichotomy e f with finer | rfl | coarser
      · exact rounded_le_of_finer scale nearest scale' nearest' order finer
      · have unit := (two_zpow_pos e).le
        have whole : n ≤ k := nearest.mono nearest' (div_le_div_of_nonneg_right order unit)
        exact mul_le_mul_of_nonneg_right (by exact_mod_cast whole) unit
      · have turned := rounded_le_of_finer scale'.neg (neg_div _ y ▸ nearest'.neg) scale.neg
          (neg_div _ x ▸ nearest.neg) (neg_le_neg order) coarser
        push_cast at turned
        linarith

end BookCatalog.Double
