import BookCatalog.Proofs.Service.Outcome
import BookCatalog.Web.Response

/-!
What the response to a failed read looks like. A status other than success is passed on as it is,
and what is wrong with the body of a success has a status of its own, so that no failure has a
status of success.
-/
namespace BookCatalog.Web

open Service

/-- An outcome that is no answer, or none that a gateway can pass on. -/
def IsBadGateway (outcome : Outcome) : Prop :=
  outcome.IsUnusable ∨ ∃ status body, outcome = .answered status body ∧
    (status = badGateway ∨ ¬ (100 ≤ status ∧ status ≤ 999))

variable {α : Type} {absent : Nat → Option α} {validate : Json → Except Error α} {valid : Json → Prop}
  {kind : Kind} {outcome : Outcome} {result : Except Error α} {error : Error}

/-- A document that is refused is a mistake of the request. -/
theorem badRequest_of_refused (validates : Validates validate valid) {document : Json}
    (failed : validate document = .error error) : statusOf error = badRequest := by
  rcases validates.refuses _ _ failed with rfl | ⟨kind, name, rfl⟩ <;> rfl

/-- The status for a rejection is none of success. -/
theorem isSuccess_of_rejection {status : Nat} {message : String}
    (refused : ¬ (200 ≤ status ∧ status < 300)) :
    isSuccess (statusOf (.service status message)) = false := by
  rw [← Bool.not_eq_true, isSuccess_iff, statusOf]
  split
  · exact refused
  · decide

theorem badGateway_of_rejection_iff {status : Nat} {message : String} :
    statusOf (.service status message) = badGateway ↔
      status = badGateway ∨ ¬ (100 ≤ status ∧ status ≤ 999) := by
  rw [statusOf]
  split
  · rename_i known
    simp [known]
  · rename_i unknown
    simp [unknown]

theorem not_isBadGateway {status : Nat} {body : ByteArray} (above : 200 ≤ status) (below : status < 500)
    (usable : ¬ (Outcome.answered status body).IsUnusable) : ¬ IsBadGateway (.answered status body) := by
  rintro (unusable | ⟨status', body', same, other⟩)
  · exact usable unusable
  · cases same
    simp only [badGateway] at other
    omega

/-- A failed read has no status of success. -/
theorem isSuccess_of_error (validates : Validates validate valid) (ends : Ends absent validate outcome result)
    (failed : result = .error error) : isSuccess (statusOf error) = false := by
  cases ends with
  | unanswered | garbled =>
    cases failed
    rfl
  | absent => cases failed
  | refused refused =>
    cases failed
    exact isSuccess_of_rejection refused
  | validated =>
    rw [badRequest_of_refused validates failed]
    rfl

theorem badGateway_iff_of_error (validates : Validates validate valid)
    (ends : Ends absent validate outcome result) (failed : result = .error error) :
    statusOf error = badGateway ↔ IsBadGateway outcome := by
  cases ends with
  | unanswered =>
    cases failed
    exact iff_of_true rfl (.inl trivial)
  | absent => cases failed
  | refused refused =>
    cases failed
    rw [badGateway_of_rejection_iff]
    simp [IsBadGateway, Outcome.IsUnusable, refused]
  | garbled success _ garbled =>
    cases failed
    exact iff_of_true rfl (.inl ⟨success, garbled⟩)
  | validated success _ found =>
    rw [badRequest_of_refused validates failed]
    apply iff_of_false (by decide)
    exact not_isBadGateway success.1 (by omega) (by simp [Outcome.IsUnusable, found])

/-- What brought data is no bad gateway, as long as no status of one stands for data. -/
theorem not_isBadGateway_of_data {data : α} (ends : Ends absent validate outcome result)
    (mistakes : ∀ status data, absent status = some data → 400 ≤ status ∧ status < 500)
    (done : result = .ok data) : ¬ IsBadGateway outcome := by
  cases ends with
  | unanswered | refused | garbled => cases done
  | absent refused known =>
    have mistake := mistakes _ _ known
    exact not_isBadGateway (by omega) mistake.2 (by simp [Outcome.IsUnusable, refused])
  | validated success _ found =>
    exact not_isBadGateway success.1 (by omega) (by simp [Outcome.IsUnusable, found])

/-- A failed search has no status of success. -/
theorem found_error (failed : Client.found kind outcome = .error error) :
    isSuccess (statusOf error) = false :=
  isSuccess_of_error records_validates ends_found failed

end BookCatalog.Web
