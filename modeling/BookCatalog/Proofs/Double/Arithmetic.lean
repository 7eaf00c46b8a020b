import BookCatalog.Proofs.Double.Rounding

/-!
Quotients, products, differences and sums of finite doubles are the exact ones, rounded. Each operation has enough
places for that before it rounds: a quotient because it is extended until it has, a product because one of two
canonical mantissas is full, and a difference because it is exact. A sum is a difference from the negative.
-/
namespace BookCatalog.Double

open Float.Model (UnpackedFloat totalExponent)
open Float.Model.Format (binary64)
open Float.Model.UnpackedFloat

variable {m n : ℕ} {e f : ℤ} {a b : UnpackedFloat}

theorem isFinite_cases (finite : a.isFinite) :
    (∃ s, a = .zero s) ∨ ∃ s m e pos, a = .finite s m e pos := by
  cases a with
  | notANumber => cases finite
  | infinity s => cases finite
  | zero s => exact .inl ⟨s, rfl⟩
  | finite s m e pos => exact .inr ⟨s, m, e, pos, rfl⟩

/-! ## Quotients -/

/-- The remainder tells where a quotient lies. -/
theorem locates_div (m : ℕ) (pos : 0 < n) :
    Locates (m / n) (.ofMantissaAndAccuracy (m / n) (accuracyOfFraction (m % n) n)) := by
  have size : (0 : ℚ) < n := Nat.cast_pos.mpr pos
  have parts : (m : ℚ) / n = (m / n : ℕ) + (m % n : ℕ) / n := by
    rw [div_eq_iff size.ne', add_mul, div_mul_cancel₀ _ size.ne']
    exact_mod_cast (Nat.div_add_mod' m n).symm
  have proper : ((m % n : ℕ) : ℚ) / n < 1 := by
    rw [div_lt_one size]
    exact_mod_cast Nat.mod_lt m pos
  rw [parts, accuracyOfFraction]
  generalize m % n = r at *
  split_ifs with exact
  · rw [exact, Nat.cast_zero, zero_div, add_zero]
    rfl
  · have positive : (0 : ℚ) < r / n := div_pos (Nat.cast_pos.mpr (Nat.pos_of_ne_zero exact)) size
    rcases lt_trichotomy (2 * r) n with less | half | more
    · have below : (r : ℚ) / n < 1 / 2 := by
        have doubled : (2 * r : ℚ) < n := by exact_mod_cast less
        rw [div_lt_iff₀ size]
        linarith
      rw [Nat.compare_eq_lt.mpr less]
      exact ⟨by linarith, by linarith⟩
    · have middle : (r : ℚ) / n = 1 / 2 := by
        have doubled : (2 * r : ℚ) = n := by exact_mod_cast half
        rw [div_eq_iff size.ne']
        linarith
      rw [Nat.compare_eq_eq.mpr half, middle]
      rfl
    · have above : 1 / 2 < (r : ℚ) / n := by
        have doubled : (n : ℚ) < 2 * r := by exact_mod_cast more
        rw [lt_div_iff₀ size]
        linarith
      rw [Nat.compare_eq_gt.mpr more]
      exact ⟨by linarith, by linarith⟩

/-- A quotient has at most one place less than its parts allow. -/
theorem log2_le_log2_div (nonzero : m ≠ 0) (pos : 0 < n) : m.log2 ≤ (m / n).log2 + n.log2 + 1 := by
  have next : m < (m / n + 1) * n := Nat.lt_mul_of_div_lt (Nat.lt_succ_self _) pos
  have fits : (m / n + 1) * n ≤ 2 ^ ((m / n).log2 + 1 + (n.log2 + 1)) := by
    rw [pow_add]
    exact Nat.mul_le_mul Nat.lt_log2_self Nat.lt_log2_self.le
  have places := (Nat.log2_lt nonzero).mpr (next.trans_le fits)
  omega

theorem target_div (nonzero : m ≠ 0) (pos : 0 < n) (places : ℕ) (f : ℤ) :
    binary64.targetExponent (totalExponent m e - totalExponent n f) ≤
      target (m <<< places / n) (e - f - places) := by
  have shifted : m <<< places ≠ 0 := by simpa [Nat.shiftLeft_eq] using nonzero
  have quotient := log2_le_log2_div shifted pos
  rw [log2_shiftLeft nonzero] at quotient
  rw [target_eq, targetExponent_eq, totalExponent, totalExponent]
  omega

/-- A quotient of magnitudes has all places that its scale asks for. -/
theorem divCore_roundsTo (s : Sign) (nonzero : m ≠ 0) (pos : 0 < n) :
    RoundsTo (factor s * (m * 2 ^ e / (n * 2 ^ f)))
      (roundWithAccuracy binary64 s (divCore binary64 m e n f).1 (divCore binary64 m e n f).2.1
        (divCore binary64 m e n f).2.2) := by
  unfold divCore
  dsimp only
  generalize least : binary64.targetExponent (totalExponent m e - totalExponent n f) = t
  generalize shift : (e - f - min (e - f) t).toNat = places
  have exponent : min (e - f) t = e - f - places := by omega
  have fine : min (e - f) t ≤ target (m <<< places / n) (min (e - f) t) := by
    have enough := target_div (e := e) nonzero pos places f
    rw [exponent]
    omega
  have located := locates_div (m <<< places) pos
  have exact : (m : ℚ) * 2 ^ e / (n * 2 ^ f) = (m <<< places : ℕ) / n * 2 ^ min (e - f) t := by
    rw [exponent, zpow_sub₀ two_ne_zero, zpow_sub₀ two_ne_zero, zpow_natCast, Nat.shiftLeft_eq]
    push_cast
    field_simp
  rw [exact]
  exact roundWithAccuracy_roundsTo s located fine

theorem div_roundsTo (finite : a.isFinite) (s : Sign) (f : ℤ) (pos : 0 < n) :
    RoundsTo (amount a / amount (.finite s n f pos)) (div binary64 a (.finite s n f pos)) := by
  obtain ⟨t, rfl⟩ | ⟨t, m, e, pos', rfl⟩ := isFinite_cases finite
  · rw [amount, zero_div]
    exact roundsTo_zero _
  · have signs : amount (.finite t m e pos') / amount (.finite s n f pos) =
        factor (t / s) * (m * 2 ^ e / (n * 2 ^ f)) := by
      rw [amount, amount, factor_div, mul_div_mul_comm]
    rw [signs]
    exact divCore_roundsTo (t / s) pos'.ne' pos

/-! ## Products -/

/-- One of two canonical mantissas is full, or the product is below the least exponent. -/
theorem target_mul (pos : 0 < m) (pos' : 0 < n) (scale : IsScale (m * 2 ^ e) e) (scale' : IsScale (n * 2 ^ f) f) :
    e + f ≤ target (m * n) (e + f) := by
  obtain ⟨-, -, full⟩ := isScale_iff.mp scale
  obtain ⟨-, -, full'⟩ := isScale_iff.mp scale'
  have places (large : 2 ^ 52 ≤ m * n) : 52 ≤ (m * n).log2 :=
    (Nat.le_log2 (mul_pos pos pos').ne').mpr large
  rw [target_eq]
  rcases full with full | rfl
  · have := places (full.trans (Nat.le_mul_of_pos_right m pos'))
    omega
  · rcases full' with full | rfl
    · have := places (full.trans (Nat.le_mul_of_pos_left n pos))
      omega
    · omega

theorem mul_roundsTo (finite : a.isFinite) (canonical : IsCanonical a) (finite' : b.isFinite)
    (canonical' : IsCanonical b) : RoundsTo (amount a * amount b) (mul binary64 a b) := by
  obtain ⟨s, rfl⟩ | ⟨s, m, e, pos, rfl⟩ := isFinite_cases finite <;>
    obtain ⟨t, rfl⟩ | ⟨t, n, f, pos', rfl⟩ := isFinite_cases finite'
  · rw [amount, zero_mul]
    exact roundsTo_zero _
  · rw [amount, zero_mul]
    exact roundsTo_zero _
  · rw [amount, amount, mul_zero]
    exact roundsTo_zero _
  · have signs : amount (.finite s m e pos) * amount (.finite t n f pos') =
        factor (s * t) * ((m * n : ℕ) * 2 ^ (e + f)) := by
      rw [amount, amount, factor_mul, zpow_add₀ two_ne_zero]
      push_cast
      ring
    rw [signs]
    exact roundWithAccuracy_roundsTo (s * t) rfl (target_mul pos pos' canonical canonical')

/-! ## Differences -/

theorem sub_roundsTo (finite : a.isFinite) (canonical : IsCanonical a) (finite' : b.isFinite)
    (canonical' : IsCanonical b) : RoundsTo (amount a - amount b) (sub binary64 a b) := by
  obtain ⟨s, rfl⟩ | ⟨s, m, e, pos, rfl⟩ := isFinite_cases finite <;>
    obtain ⟨t, rfl⟩ | ⟨t, n, f, pos', rfl⟩ := isFinite_cases finite'
  · rw [amount, amount, sub_zero, UnpackedFloat.sub]
    split_ifs
    · exact roundsTo_zero _
    · exact roundsTo_zero _
  · rw [amount, amount, zero_sub, ← neg_mul, ← factor_neg]
    exact roundsTo_self (-t) pos' canonical'
  · rw [amount, amount, sub_zero]
    exact roundsTo_self s pos canonical
  · have lined := decreaseExponent_of_le (m := m) (min_le_left e f)
    have lined' := decreaseExponent_of_le (m := n) (min_le_right e f)
    have exact : amount (.finite s m e pos) - amount (.finite t n f pos') =
        (s.apply (decreaseExponent m e (min e f)).1 - t.apply (decreaseExponent n f (min e f)).1 : ℤ) *
          2 ^ min e f := by
      rw [amount, amount, ← lined, ← lined', Int.cast_sub, apply_eq, apply_eq]
      ring
    rw [exact]
    exact normalize_roundsTo _ .positive

/-! ## Sums -/

theorem amount_neg (a : UnpackedFloat) : amount a.neg = -amount a := by
  cases a with
  | notANumber => simp [UnpackedFloat.neg, amount]
  | infinity s => rw [UnpackedFloat.neg, amount, amount, factor_neg, neg_mul]
  | zero s => simp [UnpackedFloat.neg, amount]
  | finite s m e pos => rw [UnpackedFloat.neg, amount, amount, factor_neg, neg_mul]

theorem isFinite_neg (a : UnpackedFloat) : a.neg.isFinite = a.isFinite := by
  cases a <;> rfl

theorem IsCanonical.neg (canonical : IsCanonical a) : IsCanonical a.neg := by
  cases a <;> exact canonical

theorem neg_apply (s : Sign) (n : ℤ) : (-s).apply n = -s.apply n := by
  cases s with
  | negative => exact (neg_neg n).symm
  | positive => rfl

/-- Adding is taking away the negative. -/
theorem add_eq_sub_neg (a b : UnpackedFloat) : add binary64 a b = sub binary64 a b.neg := by
  rcases a with s | _ | s | ⟨s, m, e, pos⟩ <;> rcases b with t | _ | t | ⟨t, n, f, pos'⟩
  case finite.finite => simp only [add, sub, UnpackedFloat.neg, neg_apply, sub_neg_eq_add]
  case infinity.infinity | zero.infinity | finite.infinity | zero.zero | zero.finite => cases t <;> rfl
  all_goals rfl

theorem add_roundsTo (finite : a.isFinite) (canonical : IsCanonical a) (finite' : b.isFinite)
    (canonical' : IsCanonical b) : RoundsTo (amount a + amount b) (add binary64 a b) := by
  have turned := sub_roundsTo finite canonical ((isFinite_neg b).trans finite') canonical'.neg
  rwa [amount_neg, sub_neg_eq_add, ← add_eq_sub_neg] at turned

end BookCatalog.Double
