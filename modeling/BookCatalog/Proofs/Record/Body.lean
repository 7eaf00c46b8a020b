import BookCatalog.Command.Input
import BookCatalog.Proofs.Json.Ordered
import BookCatalog.Proofs.Record.Reading
import BookCatalog.Proofs.Text.Bytes

/-!
Bodies and files of records. All that they are made of is read or nothing is, and what is read is what was
there: the records, written again, are the very documents. The first document that is no record decides the
error, and of several unknown keys in it the least by its bytes, since its keys are in order. A file is read
as a body is, but it has to be an array.
-/
namespace BookCatalog

open Json

/-- Why a document is no record of a kind: it is no object, or it has keys that are no attributes of the
kind, and the least of them by its bytes is named. -/
inductive Json.Refused (kind : Kind) : Json → Error → Prop where
  | notAnObject {document : Json} (other : ∀ fields, document ≠ .object fields) :
      Refused kind document .notAnObject
  | unknown {fields : Fields} {name : String} (held : name ∈ fields.keys) (outside : name ∉ kind.attributes)
      (least : ∀ other ∈ fields.keys, other ∉ kind.attributes → Text.bytes name ≤ Text.bytes other) :
      Refused kind (.object fields) (.unknownAttribute kind name)

variable {kind : Kind} {document body : Json} {fields : Fields} {name : String} {error other : Error}
  {records : List Record} {content : String}

/-! ## One document -/

/-- In an object that is in order, the first key outside the vocabulary is the least. -/
theorem Record.refused_of_ofFields (ordered : fields.Ordered)
    (failed : Record.ofFields kind fields = .error error) : (Json.object fields).Refused kind error := by
  unfold Record.ofFields at failed
  split at failed
  · rename_i name found
    cases failed
    obtain ⟨outside, before, behind, keys, known⟩ := List.find?_eq_some_iff_append.mp found
    refine .unknown (List.mem_of_find?_eq_some found) (by simpa [Kind.hasAttribute] using outside) ?_
    intro other held outside'
    rw [Fields.Ordered, keys, List.pairwise_append, List.pairwise_cons] at ordered
    rw [keys] at held
    apply Text.bytes_le_iff.mpr
    rcases List.mem_append.mp held with earlier | held
    · have inside : other ∈ kind.attributes := by simpa [Kind.hasAttribute] using known other earlier
      exact absurd inside outside'
    · rcases List.mem_cons.mp held with rfl | later
      · exact String.le_refl _
      · exact Std.le_of_lt (ordered.2.1.1 other later)
  · cases failed

theorem Record.refused_of_ofJson (ordered : document.IsOrdered)
    (failed : Record.ofJson kind document = .error error) : document.Refused kind error := by
  cases document with
  | object fields => exact refused_of_ofFields ordered.fields failed
  | null | bool | number | text | array =>
    cases failed
    exact .notAnObject (by simp)

/-- A document is refused for one reason only. -/
theorem Json.Refused.unique (refused : document.Refused kind error) (refused' : document.Refused kind other) :
    error = other := by
  cases refused with
  | notAnObject none =>
    cases refused' with
    | notAnObject => rfl
    | unknown => exact absurd rfl (none _)
  | unknown held outside least =>
    cases refused' with
    | notAnObject none => exact absurd rfl (none _)
    | unknown held' outside' least' =>
      have below := Text.bytes_le_iff.mp (least _ held' outside')
      have above := Text.bytes_le_iff.mp (least' _ held outside)
      rw [String.le_antisymm below above]

theorem Json.Refused.not_isRecord (refused : document.Refused kind error) : ¬ document.IsRecord kind := by
  rintro ⟨fields, rfl, known⟩
  cases refused with
  | notAnObject other => exact other _ rfl
  | unknown held outside => exact outside (known _ held)

theorem Record.ofJson_eq_error_iff (ordered : document.IsOrdered) :
    Record.ofJson kind document = .error error ↔ document.Refused kind error := by
  constructor
  · exact refused_of_ofJson ordered
  · intro refused
    cases read : Record.ofJson kind document with
    | ok record => exact absurd (exists_ofJson_iff.mp ⟨record, read⟩) refused.not_isRecord
    | error other => rw [refused.unique (refused_of_ofJson ordered read)]

/-! ## Bodies and files -/

theorem Json.IsOrdered.of_mem_elements (whole : body.IsOrdered) : ∀ item ∈ body.elements, item.IsOrdered := by
  cases whole with
  | array each => exact each
  | null => exact List.forall_mem_singleton.mpr .null
  | bool flag => exact List.forall_mem_singleton.mpr (.bool flag)
  | number n => exact List.forall_mem_singleton.mpr (.number n)
  | text s => exact List.forall_mem_singleton.mpr (.text s)
  | object ordered each => exact List.forall_mem_singleton.mpr (.object ordered each)

/-- A body is read as the records that it is made of. -/
theorem Service.records_eq_ok_iff : Service.records kind body = .ok records ↔
    records.map Record.toJson = body.elements ∧
      ∀ record ∈ records, record.kind = kind ∧ ∀ key ∈ record.attributes.keys, key ∈ kind.attributes := by
  rw [records_eq]
  exact mapM_eq_ok_iff_map fun _ _ => Record.ofJson_eq_ok_iff

/-- A body is refused for the first of its documents that is no record. -/
theorem Service.records_eq_error_iff (ordered : body.IsOrdered) : Service.records kind body = .error error ↔
    ∃ before item behind, body.elements = before ++ item :: behind ∧
      (∀ earlier ∈ before, earlier.IsRecord kind) ∧ item.Refused kind error := by
  rw [records_eq, mapM_eq_error_iff]
  simp only [Record.exists_ofJson_iff]
  refine exists_congr fun before => exists_congr fun item => exists_congr fun behind => ?_
  refine and_congr_right fun parts => and_congr_right fun _ => ?_
  exact Record.ofJson_eq_error_iff (ordered.of_mem_elements item (by simp [parts]))

theorem Command.readRecords_of_array {items : List Json} (read : Json.read? content = some (.array items)) :
    readRecords kind content = (Service.records kind (.array items)).mapError .catalog := by
  rw [readRecords, read]
  rfl

theorem Command.readRecords_of_other (other : ∀ items, Json.read? content ≠ some (.array items)) :
    ∃ failure, readRecords kind content = .error failure := by
  unfold readRecords
  split
  · exact ⟨_, rfl⟩
  · exact absurd ‹_› (other _)
  · exact ⟨_, rfl⟩

/-- **All of a body is read or nothing is.** What is read are records of the kind which, written again, are
the documents of the body, each of them and in their order; and this is so exactly if all of them are records
of the kind. Otherwise the first that is none decides the error. A file that is an array is read as the body
would be, and any other file is an error. The keys of a document are in order whenever it is read from a
text. -/
theorem bodies_read_all_or_nothing (kind : Kind) :
    (∀ (body : Json) (records : List Record), Service.records kind body = .ok records ↔
      records.map Record.toJson = body.elements ∧
        ∀ record ∈ records, record.kind = kind ∧ ∀ key ∈ record.attributes.keys, key ∈ kind.attributes) ∧
    (∀ body : Json, (∃ records, Service.records kind body = .ok records) ↔
      ∀ item ∈ body.elements, item.IsRecord kind) ∧
    (∀ (body : Json) (error : Error), body.IsOrdered → (Service.records kind body = .error error ↔
      ∃ before item behind, body.elements = before ++ item :: behind ∧
        (∀ earlier ∈ before, earlier.IsRecord kind) ∧ item.Refused kind error)) ∧
    ∀ content : String, (∀ document, Json.read? content = some document → document.IsOrdered) ∧
      (∀ items, Json.read? content = some (.array items) →
        Command.readRecords kind content = (Service.records kind (.array items)).mapError .catalog) ∧
      ((∀ items, Json.read? content ≠ some (.array items)) →
        ∃ failure, Command.readRecords kind content = .error failure) := by
  refine ⟨fun body records => Service.records_eq_ok_iff, fun body => Service.exists_records_iff,
    fun body error ordered => Service.records_eq_error_iff ordered, fun content => ⟨?_, ?_, ?_⟩⟩
  · exact fun document => isOrdered_of_read?
  · exact fun items => Command.readRecords_of_array
  · exact Command.readRecords_of_other

/-- A late document with two unknown keys discards the good one in front of it, and of the two keys the one
with the lesser bytes is named, though its character comes last in UTF-16. What follows is not looked at.
A file that is no array is refused even if it is a record. -/
theorem bodies_read_all_or_nothing_late :
    let good : Json := .object [("title", .text "Dune")]
    let bad : Json := .object [("～", .null), ("😀", .null)]
    let body : Json := .array [good, bad, .null]
    body.IsOrdered ∧ Service.records .book body = .error (.unknownAttribute .book "～") ∧
      Json.read? "[]" = some (.array []) ∧ Command.readRecords .book "[]" = .ok [] ∧
      (∀ items, Json.read? "\x7b\x7d" ≠ some (.array items)) ∧
      ∃ failure, Command.readRecords .book "\x7b\x7d" = .error failure := by
  intro good bad body
  obtain ⟨-, -, refused, file⟩ := bodies_read_all_or_nothing .book
  have ordered : body.IsOrdered := by
    refine .array (List.forall_mem_cons.mpr ⟨?_, List.forall_mem_cons.mpr ⟨?_, by simp [IsOrdered.null]⟩⟩)
    · exact .object (by decide) (List.forall_mem_singleton.mpr (.text "Dune"))
    · exact .object (by decide) (by simp [IsOrdered.null])
  have first : good.IsRecord .book := ⟨_, rfl, by decide⟩
  have second : bad.Refused .book (.unknownAttribute .book "～") :=
    .unknown (by decide) (by decide) (by decide +kernel)
  have empty : Json.read? "[]" = some (.array []) := by with_unfolding_all rfl
  have single : Json.read? "\x7b\x7d" = some (.object []) := by with_unfolding_all rfl
  have other : ∀ items, Json.read? "\x7b\x7d" ≠ some (.array items) := by simp [single]
  refine ⟨ordered, (refused body _ ordered).mpr ?_, empty, (file "[]").2.1 [] empty, other,
    (file "\x7b\x7d").2.2 other⟩
  exact ⟨[good], bad, [.null], rfl, by simpa using first, second⟩

end BookCatalog
