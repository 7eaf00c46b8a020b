import BookCatalog.Json.Writer

/-!
Values as people read them. A text stands for itself, nothing for `null`, a list is its items with
commas between them, and anything else is written as a document. An object that reports an outcome
is described field by field.
-/
namespace BookCatalog.Json

mutual

/-- The text that a value shows. -/
def plain : Json → String
  | .text s => s
  | .null => ""
  | .array items => ",".intercalate (plainItems items)
  | .bool flag => compact (.bool flag)
  | .number n => compact (.number n)
  | .object fields => compact (.object fields)

/-- The texts that the values of a list show. -/
def plainItems : List Json → List String
  | [] => []
  | item :: items => plain item :: plainItems items

end

/-- The fields of an object in one line; any other value as its text. -/
def describe : Json → String
  | .object fields => "; ".intercalate (fields.map fun (key, value) => s!"{key}: {plain value}")
  | value => plain value

end BookCatalog.Json
