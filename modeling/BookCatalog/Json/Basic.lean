/-!
JSON values. The fields of an object are held as a list, so that a document can be written in the
order its parts are given; objects that are read or edited keep their keys in increasing order, each
key once, and `insert` preserves that.
-/
namespace BookCatalog

/-- A JSON number is a whole number or a double. -/
inductive Number where
  | whole (n : Int)
  | double (x : Float)

/-- A JSON value. -/
inductive Json where
  | null
  | bool (flag : Bool)
  | number (n : Number)
  | text (s : String)
  | array (items : List Json)
  | object (fields : List (String × Json))

namespace Json

instance : Inhabited Json := ⟨.null⟩

/-- A natural number as a value. -/
def ofNat (n : Nat) : Json := .number (.whole n)

/-- A double as a value. -/
def ofFloat (x : Float) : Json := .number (.double x)

/-- The fields of an object. -/
abbrev Fields := List (String × Json)

/-- The value stored under a key. -/
def Fields.get? (fields : Fields) (key : String) : Option Json := fields.lookup key

/-- The keys of an object. -/
def Fields.keys (fields : Fields) : List String := fields.map Prod.fst

/-- Keys in increasing order of their code points, which is also the order of their UTF-8 bytes. -/
def Fields.Ordered (fields : Fields) : Prop := fields.keys.Pairwise (· < ·)

/-- Stores a value under a key, in place of an older value if there is one. -/
def Fields.insert (key : String) (value : Json) : Fields → Fields
  | [] => [(key, value)]
  | (other, held) :: rest =>
    if key = other then (key, value) :: rest
    else if key < other then (key, value) :: (other, held) :: rest
    else (other, held) :: Fields.insert key value rest

/-- The fields of a list of assignments, of which a later one replaces an earlier. -/
def Fields.ofAssignments (assignments : List (String × Json)) : Fields :=
  assignments.foldl (fun fields assignment => fields.insert assignment.1 assignment.2) []

end Json
end BookCatalog
