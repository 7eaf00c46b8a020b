import BookCatalog.Command.Input
import BookCatalog.Proofs.Field
import BookCatalog.Proofs.Json.Document
import BookCatalog.Proofs.Record.Reading

/-!
Files of records. What a search prints as a document is a file that records can be created from: the
records come back from it as they were, in their order and with every attribute.
-/
namespace BookCatalog

open Json

/-- A record of a kind that a list of records in a document holds without loss. Every record has known
attributes only, and its object has them in order; what is asked of its values is that their numbers are
words and that they do not nest too deep. The list and the record itself are two of the 127 brackets
that a document may nest. -/
structure Record.Portable (kind : Kind) (record : Record) : Prop where
  kind_eq : record.kind = kind
  known : ∀ key ∈ record.attributes.keys, kind.hasAttribute key = true
  ordered : record.attributes.Ordered
  values : ∀ field ∈ record.attributes, Storable 125 field.2

variable {kind : Kind} {record : Record} {records : List Record}

theorem Record.ofJson_toJson (own : record.kind = kind)
    (known : ∀ key ∈ record.attributes.keys, kind.hasAttribute key = true) :
    Record.ofJson kind record.toJson = .ok record :=
  Record.ofJson_eq_ok_iff.mpr ⟨rfl, own, fun key member => Kind.hasAttribute_iff.mp (known key member)⟩

theorem Record.mapM_ofJson_toJson
    (valid : ∀ record ∈ records, Record.ofJson kind record.toJson = .ok record) :
    (records.map Record.toJson).mapM (Record.ofJson kind) = .ok records :=
  mapM_eq_ok_iff.mpr (List.forall₂_map_left_iff.mpr (List.forall₂_same.mpr valid))

theorem Record.storable_list (portable : ∀ record ∈ records, record.Portable kind) :
    Storable Read.deepest (.array (records.map Record.toJson)) := by
  have each : ∀ item ∈ records.map Record.toJson, Storable 126 item := by
    intro item member
    obtain ⟨record, listed, rfl⟩ := List.mem_map.mp member
    exact .object (portable record listed).ordered (portable record listed).values
  exact .array each

namespace Command

/-- **What is printed as a document can be read back.** Whatever the records are, as long as a document
holds them without loss, reading the list of them gives the same records in the same order. The end of
the line, which printing puts behind a document, does no harm. -/
theorem printed_records_read_back (portable : ∀ record ∈ records, record.Portable kind) :
    readRecords kind (Json.array (records.map Record.toJson)).pretty = .ok records ∧
      readRecords kind ((Json.array (records.map Record.toJson)).pretty ++ "\n") = .ok records := by
  have storable := Record.storable_list portable
  have valid := Record.mapM_ofJson_toJson fun record member =>
    Record.ofJson_toJson (portable record member).kind_eq (portable record member).known
  have read := read?_write Spacing.indented_isBlank storable 0 [] (by simp)
  have line := read?_write Spacing.indented_isBlank storable 0 ['\n'] (by simp [Read.isSpace])
  rw [String.ofList_nil, String.append_empty] at read
  constructor
  · rw [readRecords, Json.pretty, read]
    simp only [valid]
    rfl
  · rw [readRecords, Json.pretty, show "\n" = String.ofList ['\n'] from rfl, line]
    simp only [valid]
    rfl

/-- Nested and empty containers, characters that are written as escapes and the largest numbers of both
signs come back. -/
theorem printed_records_read_back_nested :
    let record : Record := ⟨.book,
      [("book_id", .number (.whole 18446744073709551615)),
        ("similar_books", .array [.array [], .object [("\x01\"\\", .text "é\n")],
          .number (.whole (-9223372036854775808))])]⟩
    (∀ other ∈ [record, Record.empty .book], other.Portable .book) ∧
      readRecords .book (Json.array ([record, Record.empty .book].map Record.toJson)).pretty =
        .ok [record, Record.empty .book] := by
  intro record
  have nested : ∀ field ∈ record.attributes, Storable 125 field.2 := by
    refine List.forall_mem_cons.mpr ⟨.whole (by decide), List.forall_mem_singleton.mpr (.array ?_)⟩
    refine List.forall_mem_cons.mpr ⟨.array (by simp), List.forall_mem_cons.mpr ⟨.object ?_ ?_, ?_⟩⟩
    · decide
    · simp [Storable.text]
    · exact List.forall_mem_singleton.mpr (.whole (by decide))
  have ordered : record.attributes.Ordered := by decide
  have portable : ∀ other ∈ [record, Record.empty .book], other.Portable .book :=
    List.forall_mem_cons.mpr ⟨⟨rfl, by decide, ordered, nested⟩,
      List.forall_mem_singleton.mpr ⟨rfl, by decide, .nil, by simp [Record.empty]⟩⟩
  exact ⟨portable, (printed_records_read_back portable).1⟩

end Command
end BookCatalog
