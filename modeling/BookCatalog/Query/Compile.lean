import BookCatalog.Query.Basic
import BookCatalog.Text.Basic

/-!
Queries as text. People name a kind, a field and an operator; the service reads a whole query as one
text. A clause is its kind, a point, its field, a colon and its value; two clauses stand around their
operator with nothing in between. Values are not escaped, so a value may look like a second clause;
the kind in front is never in doubt, since no kind has a point in its name.
-/
namespace BookCatalog

/-! ## What people name -/

/-- The kind that a person names: blanks around it and the case of ASCII letters do not matter. -/
def Kind.read (text : String) : Except Error Kind :=
  match Kind.ofName? (Text.trim text).toLower with
  | some kind => .ok kind
  | none => .error (.unknownKind text)

/-- The field of a kind with a given attribute name, written exactly. -/
def Field.resolve (kind : Kind) (name : String) : Except Error Field :=
  match (ofKind kind).find? (·.key == name) with
  | some field => .ok field
  | none => .error (.unknownField kind name)

namespace Operator

/-- The word for an operator in a query. -/
def word : Operator → String
  | .and => "AND"
  | .or => "OR"

/-- The operator that a person names: blanks around it and the case of ASCII letters do not
matter. -/
def read (text : String) : Except Error Operator :=
  let word := (Text.trim text).toUpper
  if word = Operator.and.word then .ok .and
  else if word = Operator.or.word then .ok .or
  else .error (.unknownOperator text)

end Operator

/-! ## What the service reads -/

/-- The text of a clause, such as `book.title:Dune`. -/
def Clause.compile (clause : Clause) : String :=
  clause.kind.name ++ "." ++ clause.field.key ++ ":" ++ clause.value

namespace Query

/-- The text of a query, such as `book.title:DuneANDbook.author:Herbert`. -/
def compile : Query → String
  | .single clause => clause.compile
  | .compound left operator right _ => left.compile ++ operator.word ++ right.compile

/-- The kind that the text of a query asks for: what stands before the first point. -/
def kindOf (text : String) : Except Error Kind :=
  match Text.splitOnce '.' text with
  | none => .error (.unknownKind text)
  | some (name, _) => match Kind.ofName? name with
    | some kind => .ok kind
    | none => .error (.unknownKind name)

end Query
end BookCatalog
