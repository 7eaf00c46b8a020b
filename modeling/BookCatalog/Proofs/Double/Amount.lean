import BookCatalog.Proofs.Double.Nearest

/-!
What a double stands for. Taken apart, a double is a signed multiple of a power of two, and the power is the one
that its own amount is counted in. Infinities stand for the least amounts that are too large. Doubles then compare
as their amounts do, unless one of them is no number.
-/
namespace BookCatalog.Double

open Float.Model (UnpackedFloat)
open Float.Model.UnpackedFloat

/-- A sign as a factor. -/
def factor : Sign → ℚ
  | .negative => -1
  | .positive => 1

/-- The least amount that is too large for a double. -/
def tooLarge : ℚ := 2 ^ (1024 : ℤ)

/-- The amount that a double stands for. -/
def amount : UnpackedFloat → ℚ
  | .notANumber => 0
  | .infinity sign => factor sign * tooLarge
  | .zero _ => 0
  | .finite sign mantissa exponent _ => factor sign * (mantissa * 2 ^ exponent)

/-- The exponent is the scale of the amount. -/
def IsCanonical : UnpackedFloat → Prop
  | .finite _ mantissa exponent _ => IsScale (mantissa * 2 ^ exponent) exponent
  | _ => True

/-- The amount is not too large. -/
def IsInRange : UnpackedFloat → Prop
  | .finite _ _ exponent _ => exponent ≤ 971
  | _ => True

variable {x y : ℚ} {e f : ℤ} {m n : ℕ} {a b : UnpackedFloat}

/-! ## Signs -/

@[simp] theorem factor_negative : factor .negative = -1 := rfl

@[simp] theorem factor_positive : factor .positive = 1 := rfl

theorem abs_factor (s : Sign) : |factor s| = 1 := by
  cases s <;> decide +kernel

theorem factor_mul (s t : Sign) : factor (s * t) = factor s * factor t := by
  cases s <;> cases t <;> decide +kernel

theorem factor_div (s t : Sign) : factor (s / t) = factor s / factor t := by
  cases s <;> cases t <;> decide +kernel

theorem factor_neg (s : Sign) : factor (-s) = -factor s := by
  cases s <;> decide +kernel

theorem apply_eq (s : Sign) (m : ℕ) : (s.apply m : ℚ) = factor s * m := by
  cases s <;> simp [Sign.apply]

/-! ## The order of magnitudes -/

theorem tooLarge_pos : 0 < tooLarge := two_zpow_pos 1024

theorem magnitude_pos (pos : 0 < m) (e : ℤ) : (0 : ℚ) < m * 2 ^ e :=
  mul_pos (Nat.cast_pos.mpr pos) (two_zpow_pos e)

theorem abs_magnitude (m : ℕ) (e : ℤ) : |(m : ℚ) * 2 ^ e| = m * 2 ^ e :=
  abs_of_nonneg (mul_nonneg m.cast_nonneg (two_zpow_pos e).le)

/-- On its scale, a magnitude has a mantissa of 53 places, or of fewer with the least exponent. -/
theorem isScale_iff :
    IsScale (m * 2 ^ e) e ↔ -1074 ≤ e ∧ m < 2 ^ 53 ∧ (2 ^ 52 ≤ m ∨ e = -1074) := by
  have fits : |(m : ℚ) * 2 ^ e| < 2 ^ (e + 53) ↔ m < 2 ^ 53 := by
    rw [abs_magnitude, ← not_le, ← not_le]
    exact_mod_cast (two_zpow_le_mul_iff m 53).not
  have full : 2 ^ (e + 52) ≤ |(m : ℚ) * 2 ^ e| ↔ 2 ^ 52 ≤ m := by
    rw [abs_magnitude]
    exact_mod_cast two_zpow_le_mul_iff m 52
  constructor
  · intro scale
    exact ⟨scale.least, fits.mp scale.fits, scale.full.imp_left full.mp⟩
  · rintro ⟨least, small, large⟩
    exact ⟨least, fits.mpr small, large.imp_left full.mpr⟩

theorem magnitude_lt (scale : IsScale (m * 2 ^ e) e) (inRange : e ≤ 971) : (m : ℚ) * 2 ^ e < tooLarge :=
  calc
    (m : ℚ) * 2 ^ e = |(m : ℚ) * 2 ^ e| := (abs_magnitude m e).symm
    _ < 2 ^ (e + 53) := scale.fits
    _ ≤ tooLarge := two_zpow_le (by omega)

/-- A double is a number, and then finite or infinite. -/
theorem isFinite_or_infinity (real : a ≠ .notANumber) : a.isFinite = true ∨ ∃ s, a = .infinity s := by
  cases a with
  | notANumber => exact absurd rfl real
  | infinity s => exact .inr ⟨s, rfl⟩
  | zero s => exact .inl rfl
  | finite s m e pos => exact .inl rfl

theorem abs_amount_lt (canonical : IsCanonical a) (inRange : IsInRange a) (finite : a.isFinite) :
    |amount a| < tooLarge := by
  cases a with
  | notANumber => cases finite
  | infinity s => cases finite
  | zero s => simpa [amount] using tooLarge_pos
  | finite s m e pos =>
    rw [amount, abs_mul, abs_factor, one_mul, abs_magnitude]
    exact magnitude_lt canonical inRange

theorem tooLarge_le (scale : IsScale (m * 2 ^ e) e) (excess : 971 < e) : tooLarge ≤ (m : ℚ) * 2 ^ e := by
  have full := scale.full.resolve_right (by omega)
  rw [abs_magnitude] at full
  exact (two_zpow_le (by omega)).trans full

theorem compare_isLE : ((compare e f).then (compare m n)).isLE ↔ e < f ∨ e = f ∧ m ≤ n := by
  rcases lt_trichotomy e f with less | same | greater
  · simp [Int.compare_eq_lt.mpr less, less]
  · simp [same, Nat.isLE_compare]
  · simp [Int.compare_eq_gt.mpr greater]
    omega

/-- Exponents first and then mantissas compare as the magnitudes do. -/
theorem magnitude_le_iff (scale : IsScale (m * 2 ^ e) e) (scale' : IsScale (n * 2 ^ f) f) :
    ((compare e f).then (compare m n)).isLE ↔ (m : ℚ) * 2 ^ e ≤ n * 2 ^ f := by
  rw [compare_isLE]
  rcases lt_trichotomy e f with finer | rfl | coarser
  · have less := scale.lt_of_finer scale' finer
    rw [abs_magnitude, abs_magnitude] at less
    exact iff_of_true (.inl finer) less.le
  · simp [two_zpow_pos]
  · have less := scale'.lt_of_finer scale coarser
    rw [abs_magnitude, abs_magnitude] at less
    exact iff_of_false (by omega) less.not_ge

/-! ## The order of doubles -/

theorem sign_compare_isLE (s t : Sign) : (compare s t).isLE ↔ factor s ≤ factor t := by
  cases s <;> cases t <;> decide +kernel

/-- Canonical doubles compare as their amounts do, and what is no number does not compare. -/
theorem le_iff (canonical : IsCanonical a) (inRange : IsInRange a) (canonical' : IsCanonical b)
    (inRange' : IsInRange b) :
    a.le b = true ↔ a ≠ .notANumber ∧ b ≠ .notANumber ∧ amount a ≤ amount b := by
  have huge := tooLarge_pos
  -- Only two finite doubles of one sign are compared by exponent and mantissa; all others by their kinds.
  rcases a with s | _ | s | ⟨s, m, e, pos⟩ <;> rcases b with t | _ | t | ⟨t, n, f, pos'⟩
  case infinity.infinity => simp [UnpackedFloat.le, UnpackedFloat.compare, amount, sign_compare_isLE, huge]
  case finite.finite =>
    have order := magnitude_le_iff canonical canonical'
    have turned := magnitude_le_iff canonical' canonical
    have above := magnitude_pos pos e
    have above' := magnitude_pos pos' f
    rw [← Ordering.isGE_swap, Ordering.swap_then, Int.compare_swap, Nat.compare_swap] at turned
    cases s <;> cases t <;> simp [UnpackedFloat.le, UnpackedFloat.compare, amount, order, turned] <;> linarith
  case finite.infinity =>
    have above := magnitude_pos pos e
    have below := magnitude_lt canonical inRange
    cases s <;> cases t <;> simp [UnpackedFloat.le, UnpackedFloat.compare, amount] <;> linarith
  case infinity.finite =>
    have above := magnitude_pos pos' f
    have below := magnitude_lt canonical' inRange'
    cases s <;> cases t <;> simp [UnpackedFloat.le, UnpackedFloat.compare, amount] <;> linarith
  case finite.zero =>
    have above := magnitude_pos pos e
    cases s <;> simp [UnpackedFloat.le, UnpackedFloat.compare, amount, above, above.le]
  case zero.finite =>
    have above := magnitude_pos pos' f
    cases t <;> simp [UnpackedFloat.le, UnpackedFloat.compare, amount, above, above.le]
  case infinity.zero => cases s <;> simp [UnpackedFloat.le, UnpackedFloat.compare, amount, huge, huge.le]
  case zero.infinity => cases t <;> simp [UnpackedFloat.le, UnpackedFloat.compare, amount, huge, huge.le]
  all_goals simp [UnpackedFloat.le, UnpackedFloat.compare, amount]

end BookCatalog.Double
