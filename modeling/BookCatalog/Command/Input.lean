import BookCatalog.Json.Reader
import BookCatalog.Record.Basic
import BookCatalog.Settings.Basic
import BookCatalog.Text.Basic

/-!
What commands are given to work on: assignments of attributes, and files of records. Everything is
checked before anything is sent, and the first mistake is the one that is reported.
-/
namespace BookCatalog.Command

/-- Why a command failed. -/
inductive Failure where
  | catalog (error : Error)
  | settings (problem : SettingsProblem)
  | notAnAssignment (text : String)
  | notAnArray (kind : Kind)
  | unreadable (path : String)
  | unwritable (path : String)
  /-- The service answered, but not with success. -/
  | rejected (status : Nat)
  deriving DecidableEq

/-- The wording of a failure. -/
def Failure.message : Failure → String
  | .catalog error => error.message
  | .settings problem => problem.message
  | .notAnAssignment text => "expected ATTR=VALUE, got `" ++ text ++ "`"
  | .notAnArray kind => "expected a JSON array of " ++ kind.name ++ " records"
  | .unreadable path => "reading records from " ++ path
  | .unwritable path => "writing chart to " ++ path
  | .rejected status => "service answered with status " ++ toString status

/-- Stores the value of one assignment, which is everything behind its first equals sign. -/
def assign (record : Record) (assignment : String) : Except Failure Record :=
  match Text.splitOnce '=' assignment with
  | none => .error (.notAnAssignment assignment)
  | some (key, value) => (record.set (Text.trim key) (.text value)).mapError .catalog

/-- The record that a list of assignments makes up. -/
def readAssignments (kind : Kind) (assignments : List String) : Except Failure Record :=
  assignments.foldlM assign (Record.empty kind)

/-- The records in a text that is an array of them. -/
def readRecords (kind : Kind) (content : String) : Except Failure (List Record) :=
  match Json.read? content with
  | none => .error (.catalog .decode)
  | some (.array items) => (items.mapM (Record.ofJson kind)).mapError .catalog
  | some _ => .error (.notAnArray kind)

end BookCatalog.Command
