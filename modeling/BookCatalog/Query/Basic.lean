import BookCatalog.Error

/-!
Search queries. A clause asks for a value in one field; a query is one clause, or two clauses of the
same kind joined by an operator. That the kinds agree is part of the query, so it is checked once,
where the clauses are joined.
-/
namespace BookCatalog

/-- How the two clauses of a query are joined. -/
inductive Operator where
  | and
  | or
  deriving DecidableEq

/-- Asks for a value in a field. The value is taken as it is. -/
structure Clause where
  field : Field
  value : String
  deriving DecidableEq

/-- The kind of object that a clause asks for. -/
def Clause.kind (clause : Clause) : Kind := clause.field.kind

/-- A search for objects of one kind. -/
inductive Query where
  | single (clause : Clause)
  | compound (left : Clause) (operator : Operator) (right : Clause)
      (sameKind : left.kind = right.kind)
  deriving DecidableEq

namespace Query

/-- The kind of object that a query asks for. -/
def kind : Query → Kind
  | .single clause => clause.kind
  | .compound left _ _ _ => left.kind

/-- Joins two clauses, which must be of one kind. -/
def join (left : Clause) (operator : Operator) (right : Clause) : Except Error Query :=
  if sameKind : left.kind = right.kind then .ok (.compound left operator right sameKind)
  else .error .mixedKinds

/-- Asks for every record of a kind, by an empty identifier. -/
def all (kind : Kind) : Query := .single ⟨Field.identifier kind, ""⟩

end Query
end BookCatalog
