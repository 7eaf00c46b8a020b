import BookCatalog.Error
import BookCatalog.Json.Writer

/-!
Responses of the web front end. A failure is a plain text with a status: that of the service where
it rejected the call, bad gateway where it did not answer properly, and bad request for everything
that the request itself got wrong.
-/
namespace BookCatalog.Web

/-- A status with a body. -/
structure Response where
  status : Nat
  body : String
  deriving DecidableEq

/-- The status of a gateway whose service fails. -/
def badGateway : Nat := 502

/-- The status of a mistake in the request. -/
def badRequest : Nat := 400

/-- The status of a request that was overtaken. -/
def conflict : Nat := 409

/-- The status of an error. A service's status is taken over if it is one. -/
def statusOf : Error → Nat
  | .network _ | .decode => badGateway
  | .service status _ => if 100 ≤ status ∧ status ≤ 999 then status else badGateway
  | _ => badRequest

namespace Response

/-- A document as a success. -/
def ofJson (document : Json) : Response := ⟨200, document.compact⟩

/-- An error as a plain text. -/
def ofError (error : Error) : Response := ⟨statusOf error, error.message⟩

/-- The response of a ranking that was overtaken. -/
def stale : Response := ⟨conflict, (Json.object [("stale", .bool true)]).compact⟩

end Response
end BookCatalog.Web
