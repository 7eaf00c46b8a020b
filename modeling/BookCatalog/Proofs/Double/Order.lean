import BookCatalog.Proofs.Double.Arithmetic

/-!
Arithmetic keeps the order of doubles. An operation with one operand fixed follows an exact one: on finite doubles it
is the exact one, rounded, and it sends infinities to infinities. Since neither rounding nor the step from what is
too large to an infinity turns the order around, the operation is monotone where the exact one is.
-/
namespace BookCatalog.Double

open Float.Model (UnpackedFloat)
open Float.Model.Format (binary64)
open Float.Model.UnpackedFloat (Sign pack unpack)

/-- A double taken apart. -/
def parts (x : Float) : UnpackedFloat := x.toModel.unpack

/-- A double is an exact number, rounded, or the infinity on its side. -/
structure Approximates (exact : ℚ) (x : Float) : Prop where
  real : parts x ≠ .notANumber
  rounded : ∃ value, Rounds exact value ∧ amount (parts x) = clamp value

/-- Finite doubles go where an exact function sends their amounts, and infinities to infinities. -/
structure Follows (f : Float → Float) (g : ℚ → ℚ) (turn : Sign → Sign) : Prop where
  finite {x : Float} (finite : (parts x).isFinite) : Approximates (g (amount (parts x))) (f x)
  infinite {x : Float} {s : Sign} (infinite : parts x = .infinity s) : parts (f x) = .infinity (turn s)

variable {x y c : Float} {exact exact' : ℚ} {f : Float → Float} {g : ℚ → ℚ} {turn : Sign → Sign}

/-! ## The order -/

theorem parts_canonical (x : Float) : IsCanonical (parts x) := (unpack_canonical _).1

theorem parts_inRange (x : Float) : IsInRange (parts x) := (unpack_canonical _).2

theorem le_iff_parts : x ≤ y ↔ (parts x).le (parts y) = true := by
  show decide ((parts x).le (parts y) = true) = true ↔ _
  rw [decide_eq_true_iff]

theorem le_iff_amount :
    x ≤ y ↔ parts x ≠ .notANumber ∧ parts y ≠ .notANumber ∧ amount (parts x) ≤ amount (parts y) := by
  rw [le_iff_parts]
  exact le_iff (parts_canonical x) (parts_inRange x) (parts_canonical y) (parts_inRange y)

theorem abs_amount_parts_lt (finite : (parts x).isFinite) : |amount (parts x)| < tooLarge :=
  abs_amount_lt (parts_canonical x) (parts_inRange x) finite

theorem amount_low (low : parts x = .infinity .negative) : amount (parts x) = -tooLarge := by
  rw [low, amount, factor_negative, neg_one_mul]

theorem amount_high (high : parts x = .infinity .positive) : amount (parts x) = tooLarge := by
  rw [high, amount, factor_positive, one_mul]

theorem abs_amount_parts_le (x : Float) : |amount (parts x)| ≤ tooLarge := by
  have huge : |tooLarge| = tooLarge := abs_of_pos tooLarge_pos
  by_cases real : parts x = .notANumber
  · rw [real, amount, abs_zero, ← huge]
    exact abs_nonneg _
  · obtain finite | ⟨s, infinite⟩ := isFinite_or_infinity real
    · exact (abs_amount_parts_lt finite).le
    · rw [infinite, amount, abs_mul, abs_factor, one_mul, huge]

theorem low_le (low : parts x = .infinity .negative) (real : parts y ≠ .notANumber) : x ≤ y := by
  refine le_iff_amount.mpr ⟨by simp [low], real, ?_⟩
  rw [amount_low low]
  exact (abs_le.mp (abs_amount_parts_le y)).1

theorem le_high (real : parts x ≠ .notANumber) (high : parts y = .infinity .positive) : x ≤ y := by
  refine le_iff_amount.mpr ⟨real, by simp [high], ?_⟩
  rw [amount_high high]
  exact (abs_le.mp (abs_amount_parts_le x)).2

/-- What is ordered is infinite on the outer side, or finite and ordered as the amounts are. -/
theorem le_cases (order : x ≤ y) :
    parts x = .infinity .negative ∨ parts y = .infinity .positive ∨
      (parts x).isFinite ∧ (parts y).isFinite ∧ amount (parts x) ≤ amount (parts y) := by
  have huge := tooLarge_pos
  obtain ⟨real, real', amounts⟩ := le_iff_amount.mp order
  rcases isFinite_or_infinity real with finite | ⟨s, infinite⟩ <;>
    rcases isFinite_or_infinity real' with finite' | ⟨t, infinite'⟩
  · exact .inr (.inr ⟨finite, finite', amounts⟩)
  · cases t with
    | negative =>
      have inside := abs_lt.mp (abs_amount_parts_lt finite)
      rw [amount_low infinite'] at amounts
      linarith
    | positive => exact .inr (.inl infinite')
  · cases s with
    | negative => exact .inl infinite
    | positive =>
      have inside := abs_lt.mp (abs_amount_parts_lt finite')
      rw [amount_high infinite] at amounts
      linarith
  · cases s with
    | negative => exact .inl infinite
    | positive =>
      cases t with
      | negative =>
        rw [amount_high infinite, amount_low infinite'] at amounts
        linarith
      | positive => exact .inr (.inl infinite')

theorem Approximates.mono (approximates : Approximates exact x) (approximates' : Approximates exact' y)
    (order : exact ≤ exact') : x ≤ y := by
  obtain ⟨value, rounds, same⟩ := approximates.rounded
  obtain ⟨value', rounds', same'⟩ := approximates'.rounded
  refine le_iff_amount.mpr ⟨approximates.real, approximates'.real, ?_⟩
  rw [same, same']
  exact clamp_mono (rounds.mono rounds' order)

/-! ## What follows an exact function -/

theorem Follows.real (follows : Follows f g turn) (real : parts x ≠ .notANumber) :
    parts (f x) ≠ .notANumber := by
  obtain finite | ⟨s, infinite⟩ := isFinite_or_infinity real
  · exact (follows.finite finite).real
  · simp [follows.infinite infinite]

theorem Follows.mono (follows : Follows f g id) (mono : Monotone g) (order : x ≤ y) : f x ≤ f y := by
  obtain ⟨real, real', -⟩ := le_iff_amount.mp order
  -- An infinity on its own side stays there; only between two finite doubles does rounding matter.
  obtain low | high | ⟨finite, finite', amounts⟩ := le_cases order
  · exact low_le (follows.infinite low) (follows.real real')
  · exact le_high (follows.real real) (follows.infinite high)
  · exact (follows.finite finite).mono (follows.finite finite') (mono amounts)

theorem Follows.antitone (follows : Follows f g Neg.neg) (anti : Antitone g) (order : x ≤ y) : f y ≤ f x := by
  obtain ⟨real, real', -⟩ := le_iff_amount.mp order
  obtain low | high | ⟨finite, finite', amounts⟩ := le_cases order
  · exact le_high (follows.real real') (follows.infinite low)
  · exact low_le (follows.infinite high) (follows.real real)
  · exact (follows.finite finite').mono (follows.finite finite) (anti amounts)

/-! ## Operations with a fixed operand -/

/-- A double that a canonical result was packed into is what the result rounds, or an infinity. -/
theorem approximates_of_packed {a : UnpackedFloat} (packed : parts x = unpack binary64 (pack binary64 a))
    (result : RoundsTo exact a) : Approximates exact x := by
  obtain ⟨real, same⟩ := amount_unpack_pack result.canonical result.real
  rw [← packed] at real same
  exact ⟨real, _, result.rounds, same⟩

/-- An operation whose result is packed follows what its finite results round. -/
theorem follows_of_packed (op : UnpackedFloat → UnpackedFloat)
    (packed : ∀ x, parts (f x) = unpack binary64 (pack binary64 (op (parts x))))
    (rounds : ∀ x, (parts x).isFinite → RoundsTo (g (amount (parts x))) (op (parts x)))
    (infinite : ∀ s, op (.infinity s) = .infinity (turn s)) : Follows f g turn where
  finite {x} finite := approximates_of_packed (packed x) (rounds x finite)
  infinite {x s} taken := by
    rw [packed, taken, infinite]
    exact unpack_packedInfinity (turn s)

/-- A double that scales others: finite and above zero. -/
structure IsPositive (c : Float) : Prop where
  finite : c.isFinite = true
  pos : 0.0 < c

theorem IsPositive.parts_eq (positive : IsPositive c) : ∃ m e pos, parts c = .finite .positive m e pos := by
  have pos : (parts c).isFinite := positive.finite
  have above : (UnpackedFloat.zero .positive).lt (parts c) = true := by
    have less := positive.pos
    change decide ((UnpackedFloat.zero .positive).lt (parts c) = true) = true at less
    rwa [decide_eq_true_iff] at less
  obtain ⟨s, zero⟩ | ⟨s, m, e, pos, finite⟩ := isFinite_cases pos
  · rw [zero] at above
    cases above
  · cases s with
    | negative =>
      rw [finite] at above
      cases above
    | positive => exact ⟨m, e, pos, finite⟩

theorem IsPositive.amount_pos (positive : IsPositive c) : 0 < amount (parts c) := by
  obtain ⟨m, e, pos, taken⟩ := positive.parts_eq
  rw [taken, amount, factor_positive, one_mul]
  exact magnitude_pos pos e

theorem div_follows (positive : IsPositive c) : Follows (· / c) (· / amount (parts c)) id := by
  obtain ⟨m, e, pos, taken⟩ := positive.parts_eq
  refine follows_of_packed (·.div binary64 (parts c)) (fun x => rfl) (fun x finite => ?_) fun s => ?_
  · rw [taken]
    exact div_roundsTo finite .positive e pos
  · rw [taken]
    cases s <;> rfl

theorem mul_follows (positive : IsPositive c) : Follows (· * c) (· * amount (parts c)) id := by
  obtain ⟨m, e, pos, taken⟩ := positive.parts_eq
  refine follows_of_packed (·.mul binary64 (parts c)) (fun x => rfl) (fun x finite => ?_) fun s => ?_
  · exact mul_roundsTo finite (parts_canonical x) positive.finite (parts_canonical c)
  · rw [taken]
    cases s <;> rfl

theorem sub_follows (finite : c.isFinite) : Follows (· - c) (· - amount (parts c)) id := by
  refine follows_of_packed (·.sub binary64 (parts c)) (fun x => rfl) (fun x finite' => ?_) fun s => ?_
  · exact sub_roundsTo finite' (parts_canonical x) finite (parts_canonical c)
  · obtain ⟨t, zero⟩ | ⟨t, m, e, pos, taken⟩ := isFinite_cases (a := parts c) finite
    · rw [zero]
      rfl
    · rw [taken]
      rfl

theorem const_sub_follows (finite : c.isFinite) : Follows (c - ·) (amount (parts c) - ·) Neg.neg := by
  refine follows_of_packed (UnpackedFloat.sub binary64 (parts c)) (fun x => rfl) (fun x finite' => ?_) fun s => ?_
  · exact sub_roundsTo finite (parts_canonical c) finite' (parts_canonical x)
  · obtain ⟨t, zero⟩ | ⟨t, m, e, pos, taken⟩ := isFinite_cases (a := parts c) finite
    · rw [zero]
      rfl
    · rw [taken]
      rfl

/-! ## Monotone operations -/

theorem div_mono (positive : IsPositive c) (order : x ≤ y) : x / c ≤ y / c :=
  (div_follows positive).mono (fun _ _ exact => div_le_div_of_nonneg_right exact positive.amount_pos.le) order

theorem mul_mono (positive : IsPositive c) (order : x ≤ y) : x * c ≤ y * c :=
  (mul_follows positive).mono (fun _ _ exact => mul_le_mul_of_nonneg_right exact positive.amount_pos.le) order

theorem sub_mono (finite : c.isFinite) (order : x ≤ y) : x - c ≤ y - c :=
  (sub_follows finite).mono (fun _ _ exact => sub_le_sub_right exact _) order

theorem sub_antitone (finite : c.isFinite) (order : x ≤ y) : c - y ≤ c - x :=
  (const_sub_follows finite).antitone (fun _ _ exact => sub_le_sub_left exact _) order

end BookCatalog.Double
