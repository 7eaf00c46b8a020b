import BookCatalog.Interaction
import BookCatalog.Service.Reply
import BookCatalog.Json.Reader

/-!
One round trip with the service: a request, and what came of it. An outcome is read in one of two
ways. A reading call wants a document, so every status but success is an error, and so is a success
that holds no document. A changing call shows whatever was answered, and only a missing answer is an
error.
-/
namespace BookCatalog.Service

/-- What is done at a URL. -/
inductive Method where
  | get
  | post
  | put
  | delete
  deriving DecidableEq

/-- The name of a method on the wire. -/
def Method.name : Method → String
  | .get => "GET"
  | .post => "POST"
  | .put => "PUT"
  | .delete => "DELETE"

/-- A request to the service. -/
structure Request where
  method : Method
  url : String
  body : Option Json

/-- What came of a request. -/
inductive Outcome where
  | unanswered
  | answered (status : Nat) (body : ByteArray)

/-- A computation that sends requests. -/
abbrev Exchange (α : Type) : Type := Interaction Request (fun _ => Outcome) α

/-- The document in a body, or one that says there is none. -/
def lenientBody (body : ByteArray) : Json :=
  (Json.readBytes? body).getD (.object [("error", .text "invalid json")])

/-- What a reading call makes of an outcome. -/
def Outcome.document : Outcome → Except Error Json
  | .unanswered => .error (.network .transport)
  | .answered status body =>
    if isSuccess status then
      match Json.readBytes? body with
      | some document => .ok document
      | none => .error (.network .decode)
    else .error (rejection status (lenientBody body))

/-- What a changing call makes of an outcome. -/
def Outcome.reply : Outcome → Except Error Reply
  | .unanswered => .error (.network .transport)
  | .answered status body => .ok ⟨status, lenientBody body⟩

end BookCatalog.Service
