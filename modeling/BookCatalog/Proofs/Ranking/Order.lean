import Mathlib
import BookCatalog.Ranking.Top

/-!
The order of scores is a weak order, `isLess` being the comparison of standings in a linear order.
A standing tells apart what the comparison of doubles tells apart: the two zeros share one, and so
do all that is no number.
-/
namespace BookCatalog.Ranking

open Float.Model

/-- Where a double stands: by its sign, and among finite ones of one sign by exponent and mantissa.
What is no number stands lowest. -/
def place : UnpackedFloat → ℤ ×ₗ ℤ ×ₗ ℤ
  | .notANumber => toLex (-3, toLex (0, 0))
  | .infinity .negative => toLex (-2, toLex (0, 0))
  | .finite .negative mantissa exponent _ => toLex (-1, toLex (-exponent, -mantissa))
  | .zero _ => toLex (0, toLex (0, 0))
  | .finite .positive mantissa exponent _ => toLex (1, toLex (exponent, mantissa))
  | .infinity .positive => toLex (2, toLex (0, 0))

/-- Where a score stands among all scores. -/
def standing (score : Float) : ℤ ×ₗ ℤ ×ₗ ℤ := place score.toModel.unpack

variable {score other third : Float}

private theorem compare_magnitude (e f : ℤ) (m n : ℕ) :
    match (compare e f).then (compare m n) with
    | .lt => toLex (e, (m : ℤ)) < toLex (f, (n : ℤ))
    | .eq => e = f ∧ m = n
    | .gt => toLex (f, (n : ℤ)) < toLex (e, (m : ℤ)) := by
  rcases lt_trichotomy e f with less | rfl | more
  · simp [Int.compare_eq_lt.mpr less, Prod.Lex.toLex_lt_toLex, less]
  · rcases lt_trichotomy m n with less | rfl | more
    · simp [Nat.compare_eq_lt.mpr less, Prod.Lex.toLex_lt_toLex, less]
    · simp
    · simp [Nat.compare_eq_gt.mpr more, Prod.Lex.toLex_lt_toLex, more]
  · simp [Int.compare_eq_gt.mpr more, Prod.Lex.toLex_lt_toLex, more]

/-- Doubles that are numbers compare as their places do. -/
theorem compare_place {x y : UnpackedFloat} (hx : x.isNaN = false) (hy : y.isNaN = false) :
    match x.compare y with
    | some .lt => place x < place y
    | some .eq => place x = place y
    | some .gt => place y < place x
    | none => False := by
  cases x with
  | notANumber => simp [UnpackedFloat.isNaN] at hx
  | infinity s =>
    cases y with
    | notANumber => simp [UnpackedFloat.isNaN] at hy
    | infinity t => cases s <;> cases t <;> simp [UnpackedFloat.compare, place, Prod.Lex.toLex_lt_toLex, compare]
    | zero t => cases s <;> simp [UnpackedFloat.compare, place, Prod.Lex.toLex_lt_toLex]
    | finite t n f _ =>
      cases s <;> cases t <;> simp [UnpackedFloat.compare, place, Prod.Lex.toLex_lt_toLex]
  | zero s =>
    cases y with
    | notANumber => simp [UnpackedFloat.isNaN] at hy
    | infinity t => cases t <;> simp [UnpackedFloat.compare, place, Prod.Lex.toLex_lt_toLex]
    | zero t => simp [UnpackedFloat.compare, place]
    | finite t n f _ => cases t <;> simp [UnpackedFloat.compare, place, Prod.Lex.toLex_lt_toLex]
  | finite s m e _ =>
    cases y with
    | notANumber => simp [UnpackedFloat.isNaN] at hy
    | infinity t =>
      cases s <;> cases t <;> simp [UnpackedFloat.compare, place, Prod.Lex.toLex_lt_toLex]
    | zero t => cases s <;> simp [UnpackedFloat.compare, place, Prod.Lex.toLex_lt_toLex]
    | finite t n f _ =>
      have magnitude := compare_magnitude e f m n
      cases s <;> cases t
      case negative.positive => simp [UnpackedFloat.compare, place, Prod.Lex.toLex_lt_toLex]
      case positive.negative => simp [UnpackedFloat.compare, place, Prod.Lex.toLex_lt_toLex]
      all_goals
        simp only [UnpackedFloat.compare, place]
        revert magnitude
        cases (compare e f).then (compare m n) <;> simp [Prod.Lex.toLex_lt_toLex] <;> omega

private theorem isNaN_of_compare {x y : UnpackedFloat} {order : Ordering}
    (compared : x.compare y = some order) : x.isNaN = false ∧ y.isNaN = false := by
  cases x <;> cases y <;> simp_all [UnpackedFloat.compare, UnpackedFloat.isNaN]

private theorem place_of_isNaN {x : UnpackedFloat} (nan : x.isNaN = true) :
    place x = toLex (-3, toLex (0, 0)) := by
  cases x <;> simp_all [UnpackedFloat.isNaN, place]

private theorem bottom_lt_place {x : UnpackedFloat} (number : x.isNaN = false) :
    toLex (-3, toLex (0, 0)) < place x := by
  cases x with
  | notANumber => simp [UnpackedFloat.isNaN] at number
  | infinity s => cases s <;> simp [place, Prod.Lex.toLex_lt_toLex]
  | zero s => simp [place, Prod.Lex.toLex_lt_toLex]
  | finite s m e _ => cases s <;> simp [place, Prod.Lex.toLex_lt_toLex]

/-- One score is less than another exactly if it stands lower. -/
theorem isLess_iff : isLess score other = true ↔ standing score < standing other := by
  unfold isLess standing Float.isNaN Float.Model.isNaN
  cases nan : score.toModel.unpack.isNaN <;> cases nan' : other.toModel.unpack.isNaN
  · have order := compare_place nan nan'
    have less : score < other ↔ score.toModel.unpack.compare other.toModel.unpack = some .lt := by
      simp [LT.lt, Float.lt, Float.Model.lt, UnpackedFloat.lt]
    simp only [decide_eq_true_eq, less]
    revert order
    split
    · simp_all
    · intro same
      simp_all
    · intro more
      simp_all [more.le]
    · exact False.elim
  · simp [place_of_isNaN nan', (bottom_lt_place nan).le]
  · simp [place_of_isNaN nan, bottom_lt_place nan']
  · simp [place_of_isNaN nan, place_of_isNaN nan']

theorem isLess_eq_false_iff : isLess score other = false ↔ standing other ≤ standing score := by
  rw [← not_lt, ← isLess_iff, Bool.not_eq_true]

/-- Scores that are equal as doubles stand on one level, the two zeros among them. -/
theorem standing_eq_of_beq (same : (score == other) = true) : standing score = standing other := by
  have equal : score.toModel.unpack.compare other.toModel.unpack = some .eq := beq_iff_eq.mp same
  obtain ⟨number, number'⟩ := isNaN_of_compare equal
  have order := compare_place number number'
  rwa [equal] at order

example : ((0.0 : Float) == -0.0) = true := by decide

/-- So do two that are no numbers. -/
theorem standing_eq_of_isNaN (nan : score.isNaN = true) (nan' : other.isNaN = true) :
    standing score = standing other :=
  (place_of_isNaN nan).trans (place_of_isNaN nan').symm

/-- What is no number stands below every number. -/
theorem standing_lt_of_isNaN (nan : score.isNaN = true) (number : other.isNaN = false) :
    standing score < standing other :=
  (place_of_isNaN nan).trans_lt (bottom_lt_place number)

end BookCatalog.Ranking
