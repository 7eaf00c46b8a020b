import BookCatalog.Error
import BookCatalog.Json.Basic

/-!
Catalog records. A record is an object whose keys are attributes of its kind; the values are kept
just as they came. Every operation that could bring in an attribute checks it against the
vocabulary first, so one that fails leaves the record as it was.
-/
namespace BookCatalog

/-- A book or an author, by its attributes. -/
structure Record where
  kind : Kind
  attributes : Json.Fields

namespace Record

/-- A record without attributes. -/
def empty (kind : Kind) : Record := ⟨kind, []⟩

/-- A record with the given attributes. The first key outside the vocabulary is the error. -/
def ofFields (kind : Kind) (fields : Json.Fields) : Except Error Record :=
  match fields.keys.find? (!kind.hasAttribute ·) with
  | some unknown => .error (.unknownAttribute kind unknown)
  | none => .ok ⟨kind, fields⟩

/-- A record from an object; no other value is one. -/
def ofJson (kind : Kind) : Json → Except Error Record
  | .object fields => ofFields kind fields
  | _ => .error .notAnObject

/-- A record as an object, keys in order. -/
def toJson (record : Record) : Json := .object record.attributes

/-- Stores a value under an attribute of the record's kind: the answer, and the record as it is left. -/
def store (record : Record) (key : String) (value : Json) : Except Error Unit × Record :=
  if record.kind.hasAttribute key then
    (.ok (), { record with attributes := record.attributes.insert key value })
  else (.error (.unknownAttribute record.kind key), record)

/-- The record with a value stored, for those who have no use for the record if that fails. -/
def set (record : Record) (key : String) (value : Json) : Except Error Record :=
  let (answer, left) := record.store key value
  answer.map fun _ => left

/-- The value stored under an attribute. -/
def get? (record : Record) (key : String) : Option Json := record.attributes.get? key

/-- Whether a value is stored under an attribute. -/
def contains (record : Record) (key : String) : Bool := (record.get? key).isSome

/-- Number of stored attributes. -/
def size (record : Record) : Nat := record.attributes.length

end Record
end BookCatalog
