import BookCatalog.Proofs.Double.Amount

/-!
Doubles as bits. Every pattern of bits stands for a double whose exponent is the scale of its amount and whose
amount is not too large. A canonical double that is put into bits and taken out again keeps its amount, or it was
too large and becomes an infinity.
-/
namespace BookCatalog.Double

open Float.Model (Format UnpackedFloat)
open Float.Model.Format (binary64)
open Float.Model.UnpackedFloat

/-- An amount, or the infinity on its side where it is too large. -/
def clamp (x : ℚ) : ℚ := max (-tooLarge) (min tooLarge x)

theorem clamp_mono {x y : ℚ} (order : x ≤ y) : clamp x ≤ clamp y :=
  max_le_max_left _ (min_le_min_left _ order)

variable {x : ℚ} {m : ℕ} {e : ℤ}

theorem clamp_factor_mul (s : Sign) (nonneg : 0 ≤ x) : clamp (factor s * x) = factor s * min tooLarge x := by
  have huge := tooLarge_pos
  cases s with
  | negative =>
    rw [clamp, factor_negative, neg_one_mul, neg_one_mul, min_eq_right (by linarith), max_neg_neg]
  | positive =>
    rw [clamp, factor_positive, one_mul, one_mul]
    exact max_eq_right (le_min (by linarith) (by linarith))

/-! ## Taking bits apart -/

theorem toNat_implicit (mantissa : BitVec 52) : (1#1 ++ mantissa).toNat = 2 ^ 52 + mantissa.toNat := by
  have apart := Nat.two_pow_add_eq_or_of_lt mantissa.isLt 1
  rw [mul_one] at apart
  rw [BitVec.toNat_append, Nat.shiftLeft_eq, BitVec.toNat_one one_pos, one_mul, apart]

/-- Whatever the bits are, they stand for a canonical double whose amount is not too large. -/
theorem unpack_canonical (bits : BitVec binary64.numBits) :
    IsCanonical (unpack binary64 bits) ∧ IsInRange (unpack binary64 bits) := by
  have mantissa : (unpackMantissa bits).toNat < 2 ^ 52 := (unpackMantissa bits).isLt
  have exponent : (unpackExponent bits).toNat < 2 ^ 11 := (unpackExponent bits).isLt
  have bias : binary64.exponentBias = 1023 := rfl
  unfold unpack
  dsimp only
  split_ifs with top fraction bottom fraction
  case pos => exact ⟨trivial, trivial⟩
  case neg => exact ⟨trivial, trivial⟩
  case pos => exact ⟨trivial, trivial⟩
  -- With the lowest exponent the leading bit is not implied, with every other one it is.
  case neg =>
    rw [IsCanonical, IsInRange, isScale_iff, bottom, bias, BitVec.toNat_zero]
    omega
  case neg =>
    have nonzero : (unpackExponent bits).toNat ≠ 0 := fun zero => bottom (BitVec.eq_of_toNat_eq zero)
    have below : (unpackExponent bits).toNat ≠ 2047 := fun full => top (BitVec.eq_of_toNat_eq full)
    rw [IsCanonical, IsInRange, isScale_iff, toNat_implicit, bias]
    omega

/-! ## Putting them together -/

theorem unpackSign_packComponents (spec : Format) (s : Sign) (exponent : BitVec spec.exponentBits)
    (mantissa : BitVec spec.mantissaBitsWithoutImplicit) :
    Sign.ofBitVec (unpackSign (packComponents spec s exponent mantissa)) = s := by
  have kept : unpackSign (packComponents spec s exponent mantissa) = s.toBitVec := by
    ext i inside
    obtain rfl : i = 0 := by omega
    simp [unpackSign, packComponents, BitVec.getLsbD_append, BitVec.getLsbD_eq_getElem, BitVec.getElem_append]
  rw [kept]
  cases s <;> rfl

/-- What a sign, an exponent and a mantissa stand for that are no infinity and no number that is none. -/
theorem amount_unpack_packComponents (s : Sign) {exponent : BitVec 11} (mantissa : BitVec 52)
    (inside : exponent ≠ -1#_) :
    let read := unpack binary64 (packComponents binary64 s exponent mantissa)
    read ≠ .notANumber ∧ amount read = factor s *
      if exponent = 0#_ then (mantissa.toNat : ℚ) * 2 ^ (-1074 : ℤ)
      else ((2 ^ 52 + mantissa.toNat : ℕ) : ℚ) * 2 ^ (exponent.toNat - 1075 : ℤ) := by
  have bias : binary64.exponentBias = 1023 := rfl
  intro read
  unfold read unpack
  simp only [unpackExponent_packComponents, unpackMantissa_packComponents, unpackSign_packComponents,
    if_neg inside]
  split_ifs with bottom fraction
  · simp [amount, fraction]
  · simp [amount, bottom, bias]
  · simp [amount, toNat_implicit, bias]

theorem amount_unpack_normal (s : Sign) (full : 2 ^ 52 ≤ m) (fits : m < 2 ^ 53) (least : -1074 ≤ e)
    (inRange : e ≤ 971) :
    let bits := packComponents binary64 s (.ofNat 11 (e + 1075).toNat) (.ofNat 52 m)
    unpack binary64 bits ≠ .notANumber ∧ amount (unpack binary64 bits) = factor s * (m * 2 ^ e) := by
  have counted : ((BitVec.ofNat 11 (e + 1075).toNat).toNat : ℤ) = e + 1075 := by
    rw [BitVec.toNat_ofNat, Nat.mod_eq_of_lt (by omega)]
    omega
  have inside : BitVec.ofNat 11 (e + 1075).toNat ≠ -1#_ := fun top => by
    have last := congrArg BitVec.toNat top
    have largest : (-1#11).toNat = 2047 := rfl
    omega
  have above : BitVec.ofNat 11 (e + 1075).toNat ≠ 0#_ := fun bottom => by
    have first := congrArg BitVec.toNat bottom
    have smallest : (0#11).toNat = 0 := rfl
    omega
  have mantissa : 2 ^ 52 + m % 2 ^ 52 = m := by omega
  refine (amount_unpack_packComponents s _ inside).imp_right fun read => read.trans ?_
  rw [if_neg above, BitVec.toNat_ofNat, counted, mantissa, add_sub_cancel_right]

theorem amount_unpack_subnormal (s : Sign) (low : m < 2 ^ 52) :
    let bits := packComponents binary64 s 0#11 (.ofNat 52 m)
    unpack binary64 bits ≠ .notANumber ∧
      amount (unpack binary64 bits) = factor s * (m * 2 ^ (-1074 : ℤ)) := by
  have inside : 0#11 ≠ -1#_ := by decide
  refine (amount_unpack_packComponents s _ inside).imp_right fun read => read.trans ?_
  rw [if_pos rfl, BitVec.toNat_ofNat, Nat.mod_eq_of_lt low]

theorem unpack_packedInfinity (s : Sign) : unpack binary64 (packedInfinity binary64 s) = .infinity s := by
  unfold unpack packedInfinity
  simp only [unpackExponent_packComponents, unpackMantissa_packComponents, unpackSign_packComponents]
  rfl

/-- **A canonical double keeps its amount in bits, unless that is too large.** -/
theorem amount_unpack_pack {a : UnpackedFloat} (canonical : IsCanonical a) (real : a ≠ .notANumber) :
    unpack binary64 (pack binary64 a) ≠ .notANumber ∧
      amount (unpack binary64 (pack binary64 a)) = clamp (amount a) := by
  have huge := tooLarge_pos
  cases a with
  | notANumber => exact absurd rfl real
  | infinity s =>
    rw [pack, unpack_packedInfinity, amount, clamp_factor_mul s huge.le, min_self]
    exact ⟨by simp, rfl⟩
  | zero s =>
    refine (amount_unpack_subnormal s (Nat.two_pow_pos 52)).imp_right fun read => read.trans ?_
    simp [amount, clamp, huge.le]
  | finite s m e pos =>
    obtain ⟨least, fits, full⟩ := isScale_iff.mp canonical
    have bias : binary64.exponentBias = 1023 := rfl
    have width : binary64.mantissaBits = 53 := rfl
    have places : m.log2 < 53 := (Nat.log2_lt pos.ne').mpr fits
    have field : e + binary64.exponentBias + (52 : ℕ) = e + 1075 := by omega
    rw [amount, clamp_factor_mul s (magnitude_pos pos e).le, pack]
    dsimp only
    rw [field]
    split_ifs with excess normal
    case pos =>
      rw [unpack_packedInfinity, min_eq_left (tooLarge_le canonical (by omega))]
      exact ⟨by simp, rfl⟩
    case pos =>
      have full : 2 ^ 52 ≤ m := (Nat.le_log2 pos.ne').mp (by omega)
      rw [min_eq_right (magnitude_lt canonical (by omega)).le]
      exact amount_unpack_normal s full fits least (by omega)
    case neg =>
      have low : m < 2 ^ 52 := (Nat.log2_lt pos.ne').mp (by omega)
      obtain rfl : e = -1074 := by omega
      rw [min_eq_right (magnitude_lt canonical (by omega)).le]
      exact amount_unpack_subnormal s low

end BookCatalog.Double
