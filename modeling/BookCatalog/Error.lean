import BookCatalog.Field

/-!
The causes for which a catalog operation fails. A search without matches is no failure, and records
without a score are left out of a ranking silently; everything else that goes wrong is one of these
causes, and its wording is decided in one place.
-/
namespace BookCatalog

/-- Why a call to the service brought no usable answer. -/
inductive NetworkCause where
  /-- The request got no answer. -/
  | transport
  /-- The answer was a success whose body is no JSON document. -/
  | decode
  deriving DecidableEq

/-- The cause of a failed operation. -/
inductive Error where
  | network (cause : NetworkCause)
  /-- A text that should be a JSON document is none. -/
  | decode
  /-- The service answered with a status other than success. -/
  | service (status : Nat) (message : String)
  | unknownAttribute (kind : Kind) (name : String)
  | unknownField (kind : Kind) (name : String)
  | unknownKind (text : String)
  | unknownOperator (text : String)
  | mixedKinds
  | kindMismatch (expected found : Kind)
  | notAnObject
  | missingIdentifier (kind : Kind)
  deriving DecidableEq

/-- The wording of a cause. -/
def Error.message : Error → String
  | .network _ => "network error"
  | .decode => "decode error"
  | .service status message => s!"service returned {status}: {message}"
  | .unknownAttribute kind name => "unknown " ++ kind.name ++ " attribute `" ++ name ++ "`"
  | .unknownField kind name => "unknown " ++ kind.name ++ " field `" ++ name ++ "`"
  | .unknownKind text => "unknown object kind `" ++ text ++ "`"
  | .unknownOperator text => "unknown logical operator `" ++ text ++ "` (expected AND or OR)"
  | .mixedKinds => "both clauses of a compound query must target the same object kind"
  | .kindMismatch expected found =>
    "expected a " ++ expected.name ++ " record, got a " ++ found.name ++ " record"
  | .notAnObject => "expected a JSON object"
  | .missingIdentifier kind => kind.name ++ " record has no identifier"

end BookCatalog
