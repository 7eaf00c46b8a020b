import BookCatalog.Proofs.Double.Packing

/-!
How a result becomes a double. The result comes as a mantissa with two bits behind it, which tell where between
this mantissa and the next one the exact number lies. Shifting drops a bit of the mantissa and keeps what the bits
tell, and on the scale of the number the bits are all that its nearest integer depends on.
-/
namespace BookCatalog.Double

open Float.Model (Format UnpackedFloat totalExponent)
open Float.Model.Format (binary64)
open Float.Model.UnpackedFloat

/-- A number lies where the bits behind a mantissa tell. -/
def Locates (x : ℚ) : ExtendedMantissa → Prop
  | ⟨m, false, false⟩ => x = m
  | ⟨m, false, true⟩ => m < x ∧ x < m + 1 / 2
  | ⟨m, true, false⟩ => x = m + 1 / 2
  | ⟨m, true, true⟩ => m + 1 / 2 < x ∧ x < m + 1

/-- A canonical double that an exact number rounds to. -/
structure RoundsTo (x : ℚ) (a : UnpackedFloat) : Prop where
  canonical : IsCanonical a
  real : a ≠ .notANumber
  rounds : Rounds x (amount a)

variable {x : ℚ} {m : ℕ} {e : ℤ} {extended : ExtendedMantissa} {accuracy : Accuracy}

theorem Rounds.factor_mul {value : ℚ} (rounds : Rounds x value) (s : Sign) :
    Rounds (factor s * x) (factor s * value) := by
  cases s with
  | negative =>
    rw [factor_negative, neg_one_mul, neg_one_mul]
    exact rounds.neg
  | positive =>
    rw [factor_positive, one_mul, one_mul]
    exact rounds

/-! ## The bits behind a mantissa -/

theorem Locates.bounds (located : Locates x extended) : extended.mantissa ≤ x ∧ x < extended.mantissa + 1 := by
  obtain ⟨m, half, rest⟩ := extended
  cases half <;> cases rest <;> simp only [Locates] at located ⊢ <;> constructor <;> linarith

/-- The bits decide which integer is nearest. -/
theorem Locates.nearest (located : Locates x extended) : IsNearest x extended.roundedMantissa := by
  obtain ⟨m, half, rest⟩ := extended
  cases half <;> cases rest
  case false.false =>
    obtain rfl : x = m := located
    exact isNearest_intCast m
  case false.true =>
    obtain ⟨above, below⟩ : m < x ∧ x < m + 1 / 2 := located
    show IsNearest x (m : ℤ)
    exact isNearest_of_lt (by rw [abs_lt]; constructor <;> push_cast <;> linarith)
  case true.false =>
    obtain rfl : x = m + 1 / 2 := located
    show IsNearest _ ((m + m % 2 : ℕ) : ℤ)
    obtain ⟨q, rfl | rfl⟩ := m.even_or_odd'
    · have kept : 2 * q + 2 * q % 2 = 2 * q := by omega
      rw [kept]
      constructor
      · norm_num
      · exact fun _ => ⟨q, by omega⟩
    · have next : 2 * q + 1 + (2 * q + 1) % 2 = 2 * q + 2 := by omega
      rw [next]
      constructor
      · push_cast
        ring_nf
        norm_num
      · exact fun _ => ⟨q + 1, by omega⟩
  case true.true =>
    obtain ⟨above, below⟩ : m + 1 / 2 < x ∧ x < m + 1 := located
    show IsNearest x ((m + 1 : ℕ) : ℤ)
    exact isNearest_of_lt (by rw [abs_lt]; constructor <;> push_cast <;> linarith)

/-- Dropping a bit of the mantissa halves the number. -/
theorem Locates.shiftRightOne (located : Locates x extended) : Locates (x / 2) extended.shiftRightOne := by
  obtain ⟨m, half, rest⟩ := extended
  obtain ⟨q, rfl | rfl⟩ := m.even_or_odd'
  · have dropped : 2 * q / 2 = q := by omega
    cases half <;> cases rest <;> simp [Locates, ExtendedMantissa.shiftRightOne, dropped] at located ⊢ <;> grind
  · have dropped : (2 * q + 1) / 2 = q := by omega
    cases half <;> cases rest <;> simp [Locates, ExtendedMantissa.shiftRightOne, dropped] at located ⊢ <;> grind

theorem Locates.shiftRight (located : Locates x extended) (places : ℕ) :
    Locates (x / 2 ^ places) (extended >>> places) := by
  induction places with
  | zero =>
    rw [pow_zero, div_one]
    exact located
  | succ places ih =>
    rw [pow_succ, ← div_div]
    exact ih.shiftRightOne

/-! ## The scale of a result -/

theorem targetExponent_eq (total : ℤ) : binary64.targetExponent total = max (total - 53) (-1074) := by
  have least : binary64.minExponent = -1074 := by decide
  have width : binary64.mantissaBits = 53 := by decide
  rw [Format.targetExponent, least, width]
  rfl

/-- The exponent that a mantissa is shifted to. -/
def target (m : ℕ) (e : ℤ) : ℤ := binary64.targetExponent (totalExponent m e)

theorem target_eq (m : ℕ) (e : ℤ) : target m e = max (m.log2 + e - 52) (-1074) := by
  rw [target, targetExponent_eq, totalExponent]
  omega

/-- It is the scale of every number that the mantissa may stand for, if no bits are missing. -/
theorem isScale_target (above : m ≤ x) (below : x < m + 1) (fine : e ≤ target m e) :
    IsScale (x * 2 ^ e) (target m e) := by
  have unit := two_zpow_pos e
  have nonneg : 0 ≤ x := m.cast_nonneg.trans above
  have magnitude : |x * 2 ^ e| = x * 2 ^ e := abs_of_nonneg (mul_nonneg nonneg unit.le)
  rw [target_eq] at fine ⊢
  constructor
  · exact le_max_right _ _
  · have next : ((m + 1 : ℕ) : ℚ) ≤ (2 ^ (m.log2 + 1) : ℕ) := Nat.cast_le.mpr Nat.lt_log2_self
    push_cast at next
    calc
      |x * 2 ^ e| = x * 2 ^ e := magnitude
      _ < 2 ^ (m.log2 + 1) * 2 ^ e := mul_lt_mul_of_pos_right (below.trans_le next) unit
      _ = 2 ^ ((m.log2 + 1 : ℕ) + e : ℤ) := by rw [zpow_add₀ two_ne_zero, zpow_natCast]
      _ ≤ 2 ^ (max (m.log2 + e - 52) (-1074) + 53) := two_zpow_le (by omega)
  · rcases le_or_gt (m.log2 + e - 52 : ℤ) (-1074) with bottom | normal
    · exact .inr (max_eq_right bottom)
    · have nonzero : m ≠ 0 := by
        rintro rfl
        rw [Nat.log2_zero] at fine normal
        omega
      have least : ((2 ^ m.log2 : ℕ) : ℚ) ≤ m := Nat.cast_le.mpr (Nat.log2_self_le nonzero)
      push_cast at least
      left
      calc
        (2 : ℚ) ^ (max (m.log2 + e - 52) (-1074) + 52) ≤ 2 ^ (m.log2 + e : ℤ) := two_zpow_le (by omega)
        _ = 2 ^ m.log2 * 2 ^ e := by rw [zpow_add₀ two_ne_zero, zpow_natCast]
        _ ≤ x * 2 ^ e := mul_le_mul_of_nonneg_right (least.trans above) unit.le
        _ = |x * 2 ^ e| := magnitude.symm

theorem Locates.shiftToExponent (located : Locates x (.ofMantissaAndAccuracy m accuracy)) {t : ℤ} (fine : e ≤ t) :
    Locates (x * 2 ^ e / 2 ^ t) (shiftToExponent m e accuracy t).1 ∧ (shiftToExponent m e accuracy t).2 = t := by
  have places : (t - e).toNat = t - e := by omega
  constructor
  · have scaled : x * 2 ^ e / 2 ^ t = x / 2 ^ (t - e).toNat := by
      rw [← zpow_natCast, places, zpow_sub₀ two_ne_zero, div_div_eq_mul_div]
    rw [scaled]
    exact located.shiftRight _
  · show e + (t - e).toNat = t
    omega

/-- A rounded mantissa may have one bit more than fits, and then its last bit is zero. -/
theorem settled {r : ℕ} {t : ℤ} (fits : r ≤ 2 ^ 53) (least : -1074 ≤ t) (full : 2 ^ 52 ≤ r ∨ t = -1074) :
    let result := shiftToTargetExponent binary64 r t .exact
    (result.1.mantissa : ℚ) * 2 ^ result.2 = r * 2 ^ t ∧ IsScale (result.1.mantissa * 2 ^ result.2) result.2 := by
  intro result
  have shifted : result =
    (ExtendedMantissa.mk r false false >>> (target r t - t).toNat, t + (target r t - t).toNat) := rfl
  rcases fits.lt_or_eq with fits | rfl
  case inl =>
    have places : r.log2 ≤ 52 := by
      rcases r.eq_zero_or_pos with rfl | pos
      · exact Nat.zero_le _
      · exact Nat.le_of_lt_succ ((Nat.log2_lt pos.ne').mpr fits)
    have settled : (target r t - t).toNat = 0 := by
      rw [target_eq]
      omega
    have kept : result = (.mk r false false, t) := by
      rw [shifted, settled, Nat.cast_zero, add_zero]
      rfl
    rw [kept, isScale_iff]
    exact ⟨rfl, least, fits, full⟩
  case inr =>
    have one : (target (2 ^ 53) t - t).toNat = 1 := by
      rw [target_eq, Nat.log2_two_pow]
      omega
    have carried : result = (.mk (2 ^ 52) false false, t + 1) := by
      rw [shifted, one]
      rfl
    rw [carried, isScale_iff]
    refine ⟨?_, by omega, by norm_num, .inl le_rfl⟩
    push_cast
    rw [zpow_add_one₀ two_ne_zero]
    ring

/-- **A result becomes the canonical double that the exact number rounds to.** -/
theorem roundWithAccuracy_roundsTo (s : Sign) (located : Locates x (.ofMantissaAndAccuracy m accuracy))
    (fine : e ≤ target m e) :
    RoundsTo (factor s * (x * 2 ^ e)) (roundWithAccuracy binary64 s m e accuracy) := by
  have mantissa : (ExtendedMantissa.ofMantissaAndAccuracy m accuracy).mantissa = m := by
    rcases accuracy with _ | _ | _ | _ <;> rfl
  obtain ⟨above, below⟩ := located.bounds
  rw [mantissa] at above below
  have scale := isScale_target above below fine
  -- The first shift puts the number on its scale, where the bits tell its nearest integer.
  obtain ⟨shifted, exponent⟩ := located.shiftToExponent fine
  generalize first : (shiftToExponent m e accuracy (target m e)).1 = extended at shifted
  have both : shiftToTargetExponent binary64 m e accuracy = (extended, target m e) := Prod.ext first exponent
  have nearest := shifted.nearest
  have fits : extended.roundedMantissa ≤ 2 ^ 53 := by
    exact_mod_cast nearest.inside 53 ((le_abs_self _).trans scale.fits.le)
  have full : 2 ^ 52 ≤ extended.roundedMantissa ∨ target m e = -1074 := by
    refine scale.full.imp_left fun full => ?_
    rw [abs_of_nonneg (mul_nonneg (m.cast_nonneg.trans above) (two_zpow_pos e).le)] at full
    exact_mod_cast nearest.reaches 52 full
  have rounds : Rounds (x * 2 ^ e) (extended.roundedMantissa * 2 ^ target m e) := by
    exact_mod_cast Rounds.nearest scale nearest
  -- The second shift changes the mantissa only if it was rounded up to one more place, and never the amount.
  obtain ⟨same, scale'⟩ := settled fits scale.least full
  rw [← same] at rounds
  unfold roundWithAccuracy
  rw [both]
  dsimp only
  split_ifs with zero
  · rw [zero, Nat.cast_zero, zero_mul] at rounds
    have turned := rounds.factor_mul s
    rw [mul_zero] at turned
    exact ⟨trivial, nofun, turned⟩
  · exact ⟨scale', nofun, rounds.factor_mul s⟩

/-! ## Exact results -/

theorem log2_shiftLeft (nonzero : m ≠ 0) (places : ℕ) : (m <<< places).log2 = m.log2 + places := by
  induction places with
  | zero => rfl
  | succ places ih =>
    have shifted : m <<< places ≠ 0 := by simpa [Nat.shiftLeft_eq] using nonzero
    rw [Nat.shiftLeft_succ, Nat.log2_two_mul shifted, ih, add_assoc]

theorem decreaseExponent_magnitude (m : ℕ) (e t : ℤ) :
    ((decreaseExponent m e t).1 : ℚ) * 2 ^ (decreaseExponent m e t).2 = m * 2 ^ e := by
  rw [decreaseExponent, Nat.shiftLeft_eq, zpow_sub₀ two_ne_zero, zpow_natCast]
  push_cast
  field_simp

theorem decreaseExponent_of_le {t : ℤ} (coarse : t ≤ e) :
    ((decreaseExponent m e t).1 : ℚ) * 2 ^ t = m * 2 ^ e := by
  have exponent : (decreaseExponent m e t).2 = t := by
    show e - (e - t).toNat = t
    omega
  rw [← decreaseExponent_magnitude m e t, exponent]

theorem round_roundsTo (s : Sign) (nonzero : m ≠ 0) :
    RoundsTo (factor s * (m * 2 ^ e)) (round binary64 s m e) := by
  have fine : (decreaseExponent m e (target m e)).2 ≤
      target (decreaseExponent m e (target m e)).1 (decreaseExponent m e (target m e)).2 := by
    rw [target_eq (decreaseExponent m e (target m e)).1, decreaseExponent, log2_shiftLeft nonzero, target_eq]
    omega
  rw [← decreaseExponent_magnitude m e (target m e)]
  exact roundWithAccuracy_roundsTo s rfl fine

theorem isScale_zero : IsScale 0 (-1074) := ⟨le_rfl, by norm_num, .inr rfl⟩

theorem rounds_zero : Rounds 0 0 := by
  have nearest : IsNearest (0 / 2 ^ (-1074 : ℤ)) 0 := by
    rw [zero_div]
    exact_mod_cast isNearest_intCast 0
  simpa using Rounds.nearest isScale_zero nearest

theorem roundsTo_zero (s : Sign) : RoundsTo 0 (.zero s) := ⟨trivial, nofun, rounds_zero⟩

/-- A canonical double is its own rounding. -/
theorem roundsTo_self (s : Sign) (pos : 0 < m) (scale : IsScale (m * 2 ^ e) e) :
    RoundsTo (factor s * (m * 2 ^ e)) (.finite s m e pos) := by
  have exact : (m : ℚ) * 2 ^ e / 2 ^ e = (m : ℤ) := by
    rw [mul_div_cancel_right₀ _ (two_zpow_pos e).ne', Int.cast_natCast]
  have rounds : Rounds (m * 2 ^ e) (m * 2 ^ e) := by
    exact_mod_cast Rounds.nearest scale (exact ▸ isNearest_intCast m)
  exact ⟨scale, nofun, rounds.factor_mul s⟩

theorem normalize_roundsTo (n : ℤ) (s : Sign) :
    RoundsTo (n * 2 ^ e) (UnpackedFloat.normalize binary64 n e s) := by
  unfold UnpackedFloat.normalize
  rcases lt_trichotomy n 0 with below | rfl | above
  · have count : ((-n).toNat : ℚ) = -n := by exact_mod_cast Int.toNat_of_nonneg (by omega)
    have magnitude : (n : ℚ) * 2 ^ e = factor .negative * ((-n).toNat * 2 ^ e) := by
      rw [count, factor_negative]
      ring
    rw [Int.compare_eq_lt.mpr below, magnitude]
    exact round_roundsTo .negative (by omega)
  · rw [Int.cast_zero, zero_mul]
    exact roundsTo_zero s
  · have count : (n.toNat : ℚ) = n := by exact_mod_cast Int.toNat_of_nonneg above.le
    have magnitude : (n : ℚ) * 2 ^ e = factor .positive * (n.toNat * 2 ^ e) := by
      rw [count, factor_positive, one_mul]
    rw [Int.compare_eq_gt.mpr above, magnitude]
    exact round_roundsTo .positive (by omega)

end BookCatalog.Double
