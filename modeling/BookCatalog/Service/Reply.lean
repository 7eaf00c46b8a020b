import BookCatalog.Record.Listing

/-!
What the service's answers mean. A search brings one object or an array of them, and both are a list
of records; a change brings a small object that reports what was done, kept with its status for
display.
-/
namespace BookCatalog.Service

/-- Whether a status says that the request succeeded. -/
def isSuccess (status : Nat) : Bool := 200 ≤ status && status < 300

/-- The records in a body: those of an array, or the body itself as the only one. The first that is
no record of the kind is the error. -/
def records (kind : Kind) (body : Json) : Except Error (List Record) :=
  match body with
  | .array items => items.mapM (Record.ofJson kind)
  | single => (Record.ofJson kind single).map fun record => [record]

/-- The error of a status other than success. -/
def rejection (status : Nat) (body : Json) : Error := .service status body.describe

/-- The status and body of an answered change. -/
structure Reply where
  status : Nat
  body : Json

namespace Reply

/-- Whether the change was made. -/
def isSuccess (reply : Reply) : Bool := Service.isSuccess reply.status

/-- What the reply says. -/
def message (reply : Reply) : String := reply.body.describe

/-- The reply in one line. -/
def listing (reply : Reply) : String := "[" ++ toString reply.status ++ "] " ++ reply.message

/-- The reply as a document. -/
def toJson (reply : Reply) : Json := .object [("status", .ofNat reply.status), ("body", reply.body)]

end Reply
end BookCatalog.Service
