import BookCatalog.Json.Plain
import BookCatalog.Record.Basic

/-!
What is shown of a record. Its attributes come in vocabulary order, and as text they take one line
each, with an empty line in front of each record of a list. The identifying attribute stands apart:
it names the record in a URL, and its text is the identifier.
-/
namespace BookCatalog.Record

/-- The stored attributes in vocabulary order. -/
def entries (record : Record) : List (String × Json) :=
  record.kind.attributes.filterMap fun key =>
    (record.get? key).map fun value => (key, value)

/-- The text of the identifying attribute. -/
def identifier? (record : Record) : Option String :=
  (record.get? (Field.identifier record.kind).key).map Json.plain

/-- The attributes other than the identifying one. -/
def withoutIdentifier (record : Record) : Json.Fields :=
  record.attributes.filter fun (key, _) => key != (Field.identifier record.kind).key

/-- The attributes of a record, one a line. -/
def listing (record : Record) : String :=
  "\n".intercalate (record.entries.map fun (key, value) => key ++ ": " ++ value.plain)

/-- The number of records and each record's listing. -/
def listingOf (records : List Record) : String :=
  if records.isEmpty then "No matching records."
  else
    toString records.length ++ " record(s)\n" ++
      String.join (records.map fun record => "\n" ++ record.listing ++ "\n")

end BookCatalog.Record
