import BookCatalog.Proofs.Double.Order

/-!
How large results get. A result is finite if the exact one is less than half a unit above the greatest finite double,
and powers of two are their own roundings, so a result is at most the power of two that the exact one is at most. With
that, the size of a formula is added up operation by operation, and its sign is that of the exact one.
-/
namespace BookCatalog.Double

open Float.Model (UnpackedFloat)
open Float.Model.Format (binary64)
open Float.Model.UnpackedFloat (Sign pack unpack normalize)

/-- The greatest amount of a finite double. -/
def greatest : ℚ := (2 ^ 53 - 1) * 2 ^ (971 : ℤ)

/-- A quarter of the last place of the greatest double. -/
def margin : ℚ := 2 ^ (971 : ℤ) / 4

/-- A finite double that is at most a power of two. -/
structure IsWithin (bound : ℕ) (x : Float) : Prop where
  finite : (parts x).isFinite
  small : |amount (parts x)| ≤ 2 ^ bound

instance (bound : ℕ) (x : Float) : Decidable (IsWithin bound x) :=
  decidable_of_iff ((parts x).isFinite ∧ |amount (parts x)| ≤ 2 ^ bound)
    ⟨fun both => ⟨both.1, both.2⟩, fun within => ⟨within.finite, within.small⟩⟩

variable {x y : Float} {exact value : ℚ} {m : ℕ} {e : ℤ} {j k : ℕ}

/-! ## What is its own rounding -/

theorem rounds_self (n : ℤ) (scale : IsScale (n * 2 ^ e) e) : Rounds (n * 2 ^ e) (n * 2 ^ e) := by
  refine .nearest scale ?_
  rw [mul_div_cancel_right₀ _ (two_zpow_pos e).ne']
  exact isNearest_intCast n

theorem Rounds.unique {other : ℚ} (rounds : Rounds exact value) (rounds' : Rounds exact other) : value = other :=
  le_antisymm (rounds.mono rounds' le_rfl) (rounds'.mono rounds le_rfl)

theorem rounds_amount (finite : (parts x).isFinite) : Rounds (amount (parts x)) (amount (parts x)) := by
  have canonical := parts_canonical x
  obtain ⟨s, zero⟩ | ⟨s, m, e, pos, taken⟩ := isFinite_cases finite
  · rw [zero]
    exact rounds_zero
  · rw [taken] at canonical ⊢
    exact (roundsTo_self s pos canonical).rounds

/-- A whole number of at most 53 places is one mantissa. -/
theorem rounds_natCast (fits : m < 2 ^ 53) : Rounds (m : ℚ) m := by
  rcases m.eq_zero_or_pos with rfl | pos
  · exact_mod_cast rounds_zero
  · have places : m.log2 < 53 := (Nat.log2_lt pos.ne').mpr fits
    have exponent : ((52 - m.log2 : ℕ) : ℤ) = 52 - m.log2 := by omega
    have same : ((m <<< (52 - m.log2) : ℕ) : ℚ) * 2 ^ (m.log2 - 52 : ℤ) = m := by
      rw [Nat.shiftLeft_eq, Nat.cast_mul, mul_assoc, Nat.cast_pow, Nat.cast_two, ← zpow_natCast,
        ← zpow_add₀ two_ne_zero, exponent, sub_add_sub_cancel', sub_self, zpow_zero, mul_one]
    have shifted := log2_shiftLeft pos.ne' (52 - m.log2)
    have nonzero : m <<< (52 - m.log2) ≠ 0 := by simpa [Nat.shiftLeft_eq] using pos.ne'
    have scale : IsScale ((m <<< (52 - m.log2) : ℕ) * 2 ^ (m.log2 - 52 : ℤ)) (m.log2 - 52) :=
      isScale_iff.mpr ⟨by omega, (Nat.log2_lt nonzero).mp (by omega), .inl ((Nat.le_log2 nonzero).mp (by omega))⟩
    have rounds := rounds_self (m <<< (52 - m.log2) : ℕ) scale
    rwa [Int.cast_natCast, same] at rounds

theorem rounds_two_pow (bound : ℕ) : Rounds (2 ^ bound) (2 ^ bound) := by
  have same : ((2 ^ 52 : ℕ) : ℚ) * 2 ^ (bound - 52 : ℤ) = 2 ^ bound := by
    rw [Nat.cast_pow, Nat.cast_two, ← zpow_natCast, ← zpow_natCast, ← zpow_add₀ two_ne_zero]
    congr 1
    omega
  have scale : IsScale ((2 ^ 52 : ℕ) * 2 ^ (bound - 52 : ℤ)) (bound - 52) :=
    isScale_iff.mpr ⟨by omega, by norm_num, .inl le_rfl⟩
  have rounds := rounds_self (2 ^ 52 : ℕ) scale
  rwa [Int.cast_natCast, same] at rounds

/-! ## Overflow -/

theorem two_pow_split (places : ℕ) : (2 : ℚ) ^ (971 + places : ℤ) = 2 ^ places * 2 ^ (971 : ℤ) := by
  rw [zpow_add₀ two_ne_zero, zpow_natCast, mul_comm]

theorem greatest_lt : greatest < tooLarge := by
  have split : tooLarge = 2 ^ 53 * 2 ^ (971 : ℤ) := two_pow_split 53
  rw [split, greatest]
  exact mul_lt_mul_of_pos_right (sub_one_lt _) (two_zpow_pos 971)

theorem two_pow_le_greatest (bounded : k ≤ 1023) : 2 ^ k ≤ greatest :=
  calc
    (2 : ℚ) ^ k = 2 ^ (k : ℤ) := (zpow_natCast 2 k).symm
    _ ≤ 2 ^ (971 + (52 : ℕ) : ℤ) := two_zpow_le (by omega)
    _ = 2 ^ 52 * 2 ^ (971 : ℤ) := two_pow_split 52
    _ ≤ greatest := mul_le_mul_of_nonneg_right (by norm_num) (two_zpow_pos 971).le

theorem abs_amount_le (finite : (parts x).isFinite) : |amount (parts x)| ≤ greatest := by
  have canonical := parts_canonical x
  have inRange := parts_inRange x
  obtain ⟨s, zero⟩ | ⟨s, m, e, pos, taken⟩ := isFinite_cases finite
  · rw [zero, amount, abs_zero, greatest]
    positivity
  · rw [taken] at canonical inRange ⊢
    obtain ⟨-, fits, -⟩ := isScale_iff.mp canonical
    have mantissa : (m : ℚ) ≤ 2 ^ 53 - 1 := by
      have below : (m : ℚ) + 1 ≤ (2 ^ 53 : ℕ) := by exact_mod_cast fits
      push_cast at below
      linarith
    rw [amount, abs_mul, abs_factor, one_mul, abs_magnitude]
    exact mul_le_mul mantissa (two_zpow_le inRange) (two_zpow_pos e).le (m.cast_nonneg.trans mantissa)

theorem margin_pos : 0 < margin := div_pos (two_zpow_pos 971) four_pos

theorem two_pow_le_margin (bounded : k ≤ 969) : 2 ^ k ≤ margin := by
  have split : (2 : ℚ) ^ (k : ℤ) * 2 ^ (2 : ℤ) ≤ 2 ^ (971 : ℤ) := by
    rw [← zpow_add₀ two_ne_zero]
    exact two_zpow_le (by omega)
  have four : (2 : ℚ) ^ (2 : ℤ) = 4 := by norm_num
  rw [zpow_natCast, four] at split
  exact (le_div_iff₀ four_pos).mpr split

/-- That much above it is not enough to leave the finite doubles. -/
theorem rounds_greatest : Rounds (greatest + margin) greatest := by
  have unit := two_zpow_pos 971
  have exact : greatest + margin = (2 ^ 53 - 1 + 1 / 4) * 2 ^ (971 : ℤ) := by
    rw [greatest, margin]
    ring
  have magnitude : |greatest + margin| = (2 ^ 53 - 1 + 1 / 4) * 2 ^ (971 : ℤ) := by
    rw [exact]
    exact abs_of_nonneg (mul_nonneg (by norm_num) unit.le)
  have scale : IsScale (greatest + margin) 971 := by
    refine ⟨by norm_num, ?_, .inl ?_⟩
    · rw [magnitude]
      exact (mul_lt_mul_of_pos_right (by norm_num) unit).trans_eq (two_pow_split 53).symm
    · rw [magnitude]
      exact (two_pow_split 52).trans_le (mul_le_mul_of_nonneg_right (by norm_num) unit.le)
  have nearest : IsNearest ((greatest + margin) / 2 ^ (971 : ℤ)) (2 ^ 53 - 1) := by
    rw [exact, mul_div_cancel_right₀ _ unit.ne']
    exact isNearest_of_lt (by norm_num)
  have mantissa : (((2 ^ 53 - 1 : ℤ) : ℚ)) = 2 ^ 53 - 1 := by norm_num
  have rounds := Rounds.nearest scale nearest
  rwa [mantissa] at rounds

theorem clamp_eq_self (inside : |clamp value| < tooLarge) : clamp value = value := by
  have huge := tooLarge_pos
  obtain ⟨low, high⟩ := abs_lt.mp inside
  have below : value < tooLarge := by
    by_contra! large
    rw [clamp, min_eq_left large, max_eq_right (by linarith)] at high
    exact lt_irrefl _ high
  rw [clamp, min_eq_right below.le] at low ⊢
  exact max_eq_right (by
    by_contra! negative
    rw [max_eq_left negative.le] at low
    exact lt_irrefl _ low)

/-- A finite double is the rounding itself. -/
theorem Approximates.rounds (approximates : Approximates exact x) (finite : (parts x).isFinite) :
    Rounds exact (amount (parts x)) := by
  obtain ⟨value, rounds, same⟩ := approximates.rounded
  have inside := abs_amount_parts_lt finite
  rw [same] at inside ⊢
  rwa [clamp_eq_self inside]

/-- What stays below the margin is finite. -/
theorem Approximates.isFinite (approximates : Approximates exact x) (small : |exact| ≤ greatest + margin) :
    (parts x).isFinite := by
  obtain ⟨value, rounds, same⟩ := approximates.rounded
  obtain ⟨low, high⟩ := abs_le.mp small
  have below : value ≤ greatest := rounds.mono rounds_greatest high
  have above : -greatest ≤ value := rounds_greatest.neg.mono rounds low
  -- The rounding is between the greatest doubles, so it is kept, and an infinity would stand for more.
  have huge := greatest_lt
  rw [clamp, min_eq_right (below.trans huge.le), max_eq_right (by linarith)] at same
  obtain finite | ⟨s, infinite⟩ := isFinite_or_infinity approximates.real
  · exact finite
  · have large : |amount (parts x)| = tooLarge := by
      rw [infinite, amount, abs_mul, abs_factor, one_mul, abs_of_pos tooLarge_pos]
    have inside : |value| ≤ greatest := abs_le.mpr ⟨above, below⟩
    rw [same] at large
    linarith

theorem Approximates.isFinite_of_le (approximates : Approximates exact x) (small : |exact| ≤ greatest) :
    (parts x).isFinite :=
  approximates.isFinite (small.trans (le_add_of_nonneg_right margin_pos.le))

/-! ## Operations -/

theorem add_approximates (finite : (parts x).isFinite) (finite' : (parts y).isFinite) :
    Approximates (amount (parts x) + amount (parts y)) (x + y) :=
  approximates_of_packed rfl (add_roundsTo finite (parts_canonical x) finite' (parts_canonical y))

theorem sub_approximates (finite : (parts x).isFinite) (finite' : (parts y).isFinite) :
    Approximates (amount (parts x) - amount (parts y)) (x - y) :=
  approximates_of_packed rfl (sub_roundsTo finite (parts_canonical x) finite' (parts_canonical y))

theorem mul_approximates (finite : (parts x).isFinite) (finite' : (parts y).isFinite) :
    Approximates (amount (parts x) * amount (parts y)) (x * y) :=
  approximates_of_packed rfl (mul_roundsTo finite (parts_canonical x) finite' (parts_canonical y))

theorem div_approximates (finite : (parts x).isFinite) (finite' : (parts y).isFinite)
    (nonzero : amount (parts y) ≠ 0) : Approximates (amount (parts x) / amount (parts y)) (x / y) := by
  obtain ⟨s, zero⟩ | ⟨s, m, e, pos, taken⟩ := isFinite_cases finite'
  · rw [zero] at nonzero
    exact absurd rfl nonzero
  · refine approximates_of_packed (a := (parts x).div binary64 (parts y)) rfl ?_
    rw [taken]
    exact div_roundsTo finite s e pos

/-- A finite double has a finite negative. -/
theorem neg_parts (finite : (parts x).isFinite) :
    (parts (-x)).isFinite ∧ amount (parts (-x)) = -amount (parts x) := by
  have canonical := (parts_canonical x).neg
  have result : Approximates (-amount (parts x)) (-x) := by
    refine approximates_of_packed (a := (parts x).neg) rfl ⟨canonical, ?_, ?_⟩
    · intro nothing
      have same := isFinite_neg (parts x)
      rw [nothing, finite] at same
      contradiction
    · rw [amount_neg]
      exact (rounds_amount finite).neg
  have finite' := result.isFinite_of_le ((abs_neg _).trans_le (abs_amount_le finite))
  exact ⟨finite', (result.rounds finite').unique (rounds_amount finite).neg⟩

/-! ## Finite differences, and signs -/

theorem isFinite_of_unpack {a : UnpackedFloat} (finite : (unpack binary64 (pack binary64 a)).isFinite) :
    a.isFinite := by
  cases a with
  | notANumber => cases finite
  | infinity s =>
    rw [pack, unpack_packedInfinity] at finite
    cases finite
  | zero s => rfl
  | finite s m e pos => rfl

/-- A difference is finite only between finite doubles. -/
theorem isFinite_of_sub (finite : (parts (x - y)).isFinite) : (parts x).isFinite ∧ (parts y).isFinite := by
  have packed : parts (x - y) = unpack binary64 (pack binary64 ((parts x).sub binary64 (parts y))) := rfl
  have finite' := isFinite_of_unpack (packed ▸ finite)
  generalize parts x = a at finite' ⊢
  generalize parts y = b at finite' ⊢
  cases a <;> cases b
  case infinity.infinity s t => cases s <;> cases t <;> cases finite'
  all_goals first | exact ⟨rfl, rfl⟩ | cases finite'

theorem isFinite_sub (finite : (parts x).isFinite) (finite' : (parts y).isFinite)
    (small : |amount (parts x)| + |amount (parts y)| ≤ greatest + margin) : (parts (x - y)).isFinite :=
  (sub_approximates finite finite').isFinite ((abs_sub _ _).trans small)

/-- A small minuend decides nothing about that. -/
theorem const_sub_isFinite_iff (within : IsWithin k x) (bounded : k ≤ 969) :
    (parts (x - y)).isFinite ↔ (parts y).isFinite := by
  refine ⟨fun finite => (isFinite_of_sub finite).2, fun finite => isFinite_sub within.finite finite ?_⟩
  rw [add_comm]
  exact add_le_add (abs_amount_le finite) (within.small.trans (two_pow_le_margin bounded))

/-- Neither does a small subtrahend. -/
theorem sub_const_isFinite_iff (within : IsWithin k y) (bounded : k ≤ 969) :
    (parts (x - y)).isFinite ↔ (parts x).isFinite := by
  refine ⟨fun finite => (isFinite_of_sub finite).1, fun finite => isFinite_sub finite within.finite ?_⟩
  exact add_le_add (abs_amount_le finite) (within.small.trans (two_pow_le_margin bounded))

/-- Rounding keeps what is not below zero there. -/
theorem Approximates.nonneg (approximates : Approximates exact x) (finite : (parts x).isFinite)
    (nonneg : 0 ≤ exact) : 0 ≤ amount (parts x) :=
  rounds_zero.mono (approximates.rounds finite) nonneg

/-- Comparing with zero tells the sign. -/
theorem lt_zero_iff (finite : (parts x).isFinite) : x < 0.0 ↔ amount (parts x) < 0 := by
  have compared : x < 0.0 ↔ (parts x).lt (.zero .positive) = true := by
    show decide ((parts x).lt (.zero .positive) = true) = true ↔ _
    rw [decide_eq_true_iff]
  rw [compared]
  obtain ⟨s, zero⟩ | ⟨s, m, e, pos, taken⟩ := isFinite_cases finite
  · rw [zero]
    cases s <;> exact iff_of_false Bool.false_ne_true (lt_irrefl 0)
  · have size := magnitude_pos pos e
    rw [taken, amount]
    cases s with
    | negative => exact iff_of_true rfl (by rw [factor_negative]; linarith)
    | positive => exact iff_of_false Bool.false_ne_true (by rw [factor_positive]; linarith)

/-! ## Sizes -/

theorem Approximates.isWithin (approximates : Approximates exact x) (small : |exact| ≤ 2 ^ k)
    (bounded : k ≤ 1023) : IsWithin k x := by
  have finite := approximates.isFinite_of_le (small.trans (two_pow_le_greatest bounded))
  have rounds := approximates.rounds finite
  obtain ⟨low, high⟩ := abs_le.mp small
  exact ⟨finite, abs_le.mpr ⟨(rounds_two_pow k).neg.mono rounds low, rounds.mono (rounds_two_pow k) high⟩⟩

theorem IsWithin.mono (within : IsWithin j x) (order : j ≤ k) : IsWithin k x :=
  ⟨within.finite, within.small.trans (pow_le_pow_right₀ one_le_two order)⟩

/-- Together, two sizes are at most twice the larger bound. -/
theorem IsWithin.sum_le (within : IsWithin j x) (within' : IsWithin k y) :
    |amount (parts x)| + |amount (parts y)| ≤ 2 ^ (max j k + 1) :=
  calc
    |amount (parts x)| + |amount (parts y)| ≤ 2 ^ max j k + 2 ^ max j k :=
      add_le_add (within.mono (le_max_left j k)).small (within'.mono (le_max_right j k)).small
    _ = 2 ^ (max j k + 1) := by ring

theorem IsWithin.add (within : IsWithin j x) (within' : IsWithin k y) (bounded : max j k < 1023) :
    IsWithin (max j k + 1) (x + y) :=
  (add_approximates within.finite within'.finite).isWithin ((abs_add_le _ _).trans (within.sum_le within')) bounded

theorem IsWithin.sub (within : IsWithin j x) (within' : IsWithin k y) (bounded : max j k < 1023) :
    IsWithin (max j k + 1) (x - y) :=
  (sub_approximates within.finite within'.finite).isWithin ((abs_sub _ _).trans (within.sum_le within')) bounded

theorem IsWithin.mul (within : IsWithin j x) (within' : IsWithin k y) (bounded : j + k ≤ 1023) :
    IsWithin (j + k) (x * y) := by
  refine (mul_approximates within.finite within'.finite).isWithin ?_ bounded
  rw [abs_mul, pow_add]
  exact mul_le_mul within.small within'.small (abs_nonneg _) (by positivity)

/-- Dividing by one or more makes nothing larger. -/
theorem IsWithin.div (within : IsWithin k x) (finite : (parts y).isFinite) (large : 1 ≤ amount (parts y))
    (bounded : k ≤ 1023) : IsWithin k (x / y) := by
  refine (div_approximates within.finite finite (by linarith)).isWithin ?_ bounded
  rw [abs_div, abs_of_pos (one_pos.trans_le large)]
  exact (div_le_self (abs_nonneg _) large).trans within.small

/-! ## Counts -/

theorem toFloat_approximates (n : UInt64) : Approximates n.toNat n.toFloat := by
  refine approximates_of_packed (a := UnpackedFloat.ofUInt64 binary64 n) rfl ?_
  have rounds := normalize_roundsTo (e := 0) (n.toNat : ℤ) .positive
  rwa [zpow_zero, mul_one, Int.cast_natCast] at rounds

theorem one_parts : (parts (Float.ofBits 0x3FF0000000000000)).isFinite = true ∧
    amount (parts (Float.ofBits 0x3FF0000000000000)) = 1 := by
  decide +kernel

/-- A short whole number is taken as it is, and times one. -/
theorem ofScientific_of_lt (short : m < 2 ^ 53) :
    Float.ofScientific m false 0 = m.toUInt64.toFloat * Float.ofBits 0x3FF0000000000000 := by
  rw [Float.ofScientific, dif_pos ⟨short, by norm_num⟩]
  rfl

/-- A long one is a product of two mantissas, rounded. -/
theorem parts_ofScientific_of_ge (long : 2 ^ 53 ≤ m) :
    parts (Float.ofScientific m false 0) =
      unpack binary64 (pack binary64
        (Float.Model.UnpackedFloat.roundWithAccuracy binary64 .positive (m <<< 53 * 1) (-53 + 0) .exact)) := by
  rw [Float.ofScientific, dif_neg fun both => both.1.not_ge long]
  show unpack binary64 (pack binary64 (UnpackedFloat.ofScientific binary64 m 0)) = _
  have bits : (0 : ℤ) ≤ 2 ^ binary64.exponentBits := by decide
  rw [UnpackedFloat.ofScientific, dif_neg (by omega), if_neg (by decide), if_neg (by omega), if_pos le_rfl]
  rfl

/-- A whole number as a double is the number, rounded. -/
theorem ofNat_approximates (n : ℕ) : Approximates n (Float.ofScientific n false 0) := by
  rcases lt_or_ge n (2 ^ 53) with short | long
  case inl =>
    -- Of at most 53 places, it is its own rounding, and what follows is a product with one.
    have read : n.toUInt64.toNat = n := UInt64.toNat_ofNat_of_lt (short.trans (by norm_num))
    have taken := toFloat_approximates n.toUInt64
    rw [read] at taken
    have within : |(n : ℚ)| ≤ 2 ^ 53 := by
      rw [Nat.abs_cast]
      exact_mod_cast short.le
    have finite := taken.isFinite_of_le (within.trans (two_pow_le_greatest (by norm_num)))
    have same : amount (parts n.toUInt64.toFloat) = n := (taken.rounds finite).unique (rounds_natCast short)
    have product := mul_approximates finite one_parts.1
    rw [same, one_parts.2, mul_one] at product
    rwa [ofScientific_of_lt short]
  case inr =>
    have exact : (n : ℚ) = factor .positive * ((n <<< 53 * 1 : ℕ) * 2 ^ (-53 + 0 : ℤ)) := by
      rw [factor_positive, one_mul, mul_one, Nat.shiftLeft_eq, add_zero, zpow_neg, Nat.cast_mul]
      exact (mul_inv_cancel_right₀ (by norm_num) _).symm
    have fine : (-53 + 0 : ℤ) ≤ target (n <<< 53 * 1) (-53 + 0) := by
      rw [target_eq, mul_one, log2_shiftLeft (by omega)]
      omega
    refine approximates_of_packed (parts_ofScientific_of_ge long) ?_
    nth_rewrite 1 [exact]
    exact roundWithAccuracy_roundsTo .positive rfl fine

theorem ofNat_isWithin (fits : m ≤ 2 ^ k) (bounded : k ≤ 1023) : IsWithin k (Float.ofScientific m false 0) := by
  refine (ofNat_approximates m).isWithin ?_ bounded
  rw [Nat.abs_cast]
  exact_mod_cast fits

theorem one_le_amount_ofNat (pos : 0 < m) (finite : (parts (Float.ofScientific m false 0)).isFinite) :
    1 ≤ amount (parts (Float.ofScientific m false 0)) := by
  have one : Rounds 1 1 := by simpa using rounds_two_pow 0
  exact one.mono ((ofNat_approximates m).rounds finite) (by exact_mod_cast pos)

end BookCatalog.Double
