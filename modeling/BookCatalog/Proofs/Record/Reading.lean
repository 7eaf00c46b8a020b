import BookCatalog.Proofs.Except
import BookCatalog.Proofs.Json.Fields
import BookCatalog.Service.Reply

/-!
Which documents are records. Reading a document tells whether it is an object with attributes of the kind
and nothing else, and a body is read exactly if this holds of all that it is made of.
-/
namespace BookCatalog

/-- A document is a record of a kind if it is an object whose keys are attributes of the kind. -/
def Json.IsRecord (kind : Kind) (document : Json) : Prop :=
  ∃ fields, document = .object fields ∧ ∀ key ∈ Json.Fields.keys fields, key ∈ kind.attributes

/-- What a body is made of: the items of an array, or the body itself. -/
def Json.elements : Json → List Json
  | .array items => items
  | single => [single]

/-- A body holds records of a kind if all that it is made of is one. -/
def Json.HoldsRecords (kind : Kind) (body : Json) : Prop := ∀ item ∈ body.elements, item.IsRecord kind

variable {kind : Kind} {document body : Json} {record : Record} {error : Error}

theorem Record.ofFields_eq_ok_iff {fields : Json.Fields} :
    Record.ofFields kind fields = .ok record ↔
      (∀ key ∈ fields.keys, key ∈ kind.attributes) ∧ record = ⟨kind, fields⟩ := by
  unfold Record.ofFields
  split
  · rename_i unknown found
    have outside : unknown ∉ kind.attributes := by simpa [Kind.hasAttribute] using List.find?_some found
    constructor
    · rintro ⟨⟩
    · rintro ⟨known, -⟩
      exact absurd (known unknown (List.mem_of_find?_eq_some found)) outside
  · rename_i none
    have known : ∀ key ∈ fields.keys, key ∈ kind.attributes := by simpa [Kind.hasAttribute] using none
    simp only [Except.ok.injEq, eq_comm, and_iff_right known]

/-- A document is read as a record exactly if it is what the record is written as. -/
theorem Record.ofJson_eq_ok_iff :
    Record.ofJson kind document = .ok record ↔
      document = record.toJson ∧ record.kind = kind ∧ ∀ key ∈ record.attributes.keys, key ∈ kind.attributes := by
  cases document with
  | object fields =>
    rw [Record.ofJson, Record.ofFields_eq_ok_iff]
    constructor
    · rintro ⟨known, rfl⟩
      exact ⟨rfl, rfl, known⟩
    · rintro ⟨written, rfl, known⟩
      cases written
      exact ⟨known, rfl⟩
  | null | bool | number | text | array => simp [Record.ofJson, Record.toJson]

theorem Record.exists_ofJson_iff :
    (∃ record, Record.ofJson kind document = .ok record) ↔ document.IsRecord kind := by
  simp only [Record.ofJson_eq_ok_iff, Json.IsRecord]
  constructor
  · rintro ⟨record, written, -, known⟩
    exact ⟨record.attributes, written, known⟩
  · rintro ⟨fields, written, known⟩
    exact ⟨⟨kind, fields⟩, written, rfl, known⟩

/-- What is read as a record of a kind is one. -/
theorem Record.kind_of_ofJson (read : Record.ofJson kind document = .ok record) : record.kind = kind :=
  (Record.ofJson_eq_ok_iff.mp read).2.1

/-- Its attributes are the document as it stands. -/
theorem Record.attributes_of_ofJson (read : Record.ofJson kind document = .ok record) :
    document = .object record.attributes :=
  (Record.ofJson_eq_ok_iff.mp read).1

/-- A record has an identifier if it has the attribute for one, whatever the value. -/
theorem Record.isSome_identifier?_iff :
    record.identifier?.isSome = true ↔ (Field.identifier record.kind).key ∈ record.attributes.keys := by
  rw [Record.identifier?, Option.isSome_map, Record.get?, Json.Fields.isSome_get?_iff]

/-- A document is refused as no object, or for an attribute that is unknown. -/
theorem Record.error_of_ofJson (failed : Record.ofJson kind document = .error error) :
    error = .notAnObject ∨ ∃ name, error = .unknownAttribute kind name := by
  unfold Record.ofJson Record.ofFields at failed
  split at failed
  · split at failed <;> cases failed
    exact .inr ⟨_, rfl⟩
  · cases failed
    exact .inl rfl

namespace Service

theorem records_eq : records kind body = body.elements.mapM (Record.ofJson kind) := by
  cases body with
  | array items => rfl
  | null | bool | number | text | object =>
    simp only [records, Json.elements, List.mapM_cons, List.mapM_nil]
    cases Record.ofJson kind _ <;> rfl

theorem exists_records_iff :
    (∃ list, records kind body = .ok list) ↔ body.HoldsRecords kind := by
  simp only [records_eq, exists_mapM_iff, Record.exists_ofJson_iff, Json.HoldsRecords]

theorem error_of_records (failed : records kind body = .error error) :
    error = .notAnObject ∨ ∃ name, error = .unknownAttribute kind name := by
  rw [records_eq] at failed
  obtain ⟨item, -, wrong⟩ := mapM_error failed
  exact Record.error_of_ofJson wrong

end Service
end BookCatalog
