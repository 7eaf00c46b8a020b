import BookCatalog.Proofs.Field
import BookCatalog.Proofs.Json.Ordered
import BookCatalog.Proofs.Record.Reading
import BookCatalog.Record.Listing

/-!
Records keep to the vocabulary of their kind, whatever is tried on them. Each way to come by a record
checks its keys, each attempt to store a value checks one more, and an attempt that fails leaves the
record alone. This is why the listing, which goes through the vocabulary and not through the record, shows
everything that is stored, and, since the vocabulary and the fields of a kind agree, why everything that is
stored can be searched for.
-/
namespace BookCatalog

open Json

/-- The records of a kind that can be come by: an empty one, the fields of an object, a document, and what
values stored in any of these make of it, whether storing them succeeds or not. -/
inductive Record.Reached (kind : Kind) : Record → Prop where
  | empty : Reached kind (.empty kind)
  | ofFields {fields : Fields} {record : Record} (ordered : fields.Ordered)
      (accepted : Record.ofFields kind fields = .ok record) : Reached kind record
  | ofJson {document : Json} {record : Record} (ordered : document.IsOrdered)
      (accepted : Record.ofJson kind document = .ok record) : Reached kind record
  | store {record : Record} (reached : Reached kind record) (key : String) (value : Json) :
      Reached kind (record.store key value).2
  | set {record changed : Record} (reached : Reached kind record) {key : String} {value : Json}
      (stored : record.set key value = .ok changed) : Reached kind changed

/-- What becomes of an attempt: an attribute of the kind gets the value and nothing else is changed, and any
other key is refused and changes nothing. -/
inductive Record.Stores (record : Record) (key : String) (value : Json) : Except Error Unit × Record → Prop where
  | stored {changed : Record} (known : key ∈ record.kind.attributes) (kind_eq : changed.kind = record.kind)
      (held : ∀ other, changed.get? other = if other = key then some value else record.get? other) :
      Stores record key value (.ok (), changed)
  | refused (unknown : key ∉ record.kind.attributes) :
      Stores record key value (.error (.unknownAttribute record.kind key), record)

/-- A record that keeps to the vocabulary of a kind. -/
structure Record.Fits (record : Record) (kind : Kind) : Prop where
  kind_eq : record.kind = kind
  known : ∀ key ∈ record.attributes.keys, key ∈ kind.attributes
  ordered : record.attributes.Ordered

namespace Record

variable {kind : Kind} {record changed : Record} {key : String} {value : Json}

/-! ## Every run keeps to the vocabulary -/

theorem store_known (known : key ∈ record.kind.attributes) :
    record.store key value = (.ok (), ⟨record.kind, record.attributes.insert key value⟩) :=
  if_pos (Kind.hasAttribute_iff.mpr known)

theorem store_unknown (unknown : key ∉ record.kind.attributes) :
    record.store key value = (.error (.unknownAttribute record.kind key), record) :=
  if_neg fun has => unknown (Kind.hasAttribute_iff.mp has)

/-- A value is set exactly if it is stored, and the record is the one that storing it leaves. -/
theorem set_eq_ok_iff_store : record.set key value = .ok changed ↔ record.store key value = (.ok (), changed) := by
  unfold set
  rcases record.store key value with ⟨_ | _, left⟩ <;> simp [Except.map]

theorem set_eq_error_iff_store {error : Error} :
    record.set key value = .error error ↔ (record.store key value).1 = .error error := by
  unfold set
  rcases record.store key value with ⟨_ | _, left⟩ <;> simp [Except.map]

theorem set_eq_ok_iff : record.set key value = .ok changed ↔
    key ∈ record.kind.attributes ∧ changed = ⟨record.kind, record.attributes.insert key value⟩ := by
  rw [set_eq_ok_iff_store]
  by_cases known : key ∈ record.kind.attributes
  · rw [store_known known]
    simp [known, eq_comm]
  · rw [store_unknown known]
    simp [known]

theorem set_eq_error_iff {error : Error} : record.set key value = .error error ↔
    key ∉ record.kind.attributes ∧ error = .unknownAttribute record.kind key := by
  rw [set_eq_error_iff_store]
  by_cases known : key ∈ record.kind.attributes
  · rw [store_known known]
    simp [known]
  · rw [store_unknown known]
    simp [known, eq_comm]

theorem stores_store (record : Record) (key : String) (value : Json) :
    record.Stores key value (record.store key value) := by
  by_cases known : key ∈ record.kind.attributes
  · rw [store_known known]
    exact .stored known rfl fun other => Fields.get?_insert
  · rw [store_unknown known]
    exact .refused known

theorem Fits.store (fits : record.Fits kind) (key : String) (value : Json) :
    (record.store key value).2.Fits kind := by
  by_cases known : key ∈ record.kind.attributes
  · rw [store_known known]
    refine ⟨fits.kind_eq, fun other member => ?_, fits.ordered.insert _ _⟩
    rcases Fields.mem_keys_insert.mp member with rfl | held
    · exact fits.kind_eq ▸ known
    · exact fits.known other held
  · rw [store_unknown known]
    exact fits

theorem Fits.set (fits : record.Fits kind) (stored : record.set key value = .ok changed) : changed.Fits kind := by
  have left := fits.store key value
  rwa [set_eq_ok_iff_store.mp stored] at left

theorem Reached.fits (reached : record.Reached kind) : record.Fits kind := by
  induction reached with
  | empty => exact ⟨rfl, by simp [Record.empty], .nil⟩
  | ofFields ordered accepted =>
    obtain ⟨known, rfl⟩ := ofFields_eq_ok_iff.mp accepted
    exact ⟨rfl, known, ordered⟩
  | ofJson ordered accepted =>
    obtain ⟨rfl, own, known⟩ := ofJson_eq_ok_iff.mp accepted
    exact ⟨own, known, ordered.fields⟩
  | store _ key value fits => exact fits.store key value
  | set _ stored fits => exact fits.set stored

/-! ## What the vocabulary shows of a record -/

theorem mem_entries : (key, value) ∈ record.entries ↔
    key ∈ record.kind.attributes ∧ record.get? key = some value := by
  simp only [entries, List.mem_filterMap, Option.map_eq_some_iff, Prod.mk.injEq]
  constructor
  · rintro ⟨listed, known, held, found, rfl, rfl⟩
    exact ⟨known, found⟩
  · rintro ⟨known, found⟩
    exact ⟨key, known, value, found, rfl, rfl⟩

/-- The entries go through the vocabulary and leave out what is not stored. -/
theorem keys_entries : record.entries.map Prod.fst = record.kind.attributes.filter record.contains := by
  rw [entries, List.map_filterMap, ← List.filterMap_eq_filter]
  congr 1
  funext key
  cases found : record.get? key <;> simp [Record.contains, found, Option.guard]

theorem nodup_entries : record.entries.Nodup := by
  have keys : (record.entries.map Prod.fst).Nodup := by
    rw [keys_entries]
    exact (Kind.nodup_attributes _).filter _
  exact keys.of_map Prod.fst

/-- A record that keeps to its vocabulary shows all that is stored in it. -/
theorem Fits.entries_perm (fits : record.Fits kind) : record.entries.Perm record.attributes := by
  apply (List.perm_ext_iff_of_nodup nodup_entries fits.ordered.nodup).mpr
  rintro ⟨key, value⟩
  rw [mem_entries, get?, fits.ordered.get?_eq_some_iff]
  constructor
  · exact And.right
  · intro stored
    have known := fits.known key (List.mem_map_of_mem stored)
    exact ⟨fits.kind_eq ▸ known, stored⟩

/-- **Whatever is tried on a record, it keeps to the vocabulary of its kind.** However the record was come
by, and whichever attempts succeeded, its kind is what it was and its keys are attributes of the kind. Each
further attempt stores one value or fails and leaves the record as it is, and setting a value is such an
attempt whose record is dropped if it fails. The entries are what is stored, each attribute once and in the
order of the vocabulary, the listing has one line for each of them, and each of them is a field that can be
searched for. -/
theorem records_keep_vocabulary (reached : record.Reached kind) :
    (record.kind = kind ∧ ∀ key ∈ record.attributes.keys, key ∈ kind.attributes) ∧
      (∀ key value, record.Stores key value (record.store key value) ∧
        (∀ error, (record.store key value).1 = .error error → (record.store key value).2 = record) ∧
        (∀ changed, record.set key value = .ok changed ↔ record.store key value = (.ok (), changed)) ∧
        ∀ error, record.set key value = .error error ↔ (record.store key value).1 = .error error) ∧
      (record.entries.Perm record.attributes ∧ record.entries.length = record.size ∧
        record.entries.map Prod.fst = kind.attributes.filter record.contains) ∧
      record.listing = "\n".intercalate (record.entries.map fun entry => entry.1 ++ ": " ++ entry.2.plain) ∧
      ∀ key ∈ record.attributes.keys,
        ∃ field : Field, Field.resolve kind key = .ok field ∧ field.kind = kind ∧ field.key = key := by
  have fits := reached.fits
  have shown : record.entries.Perm record.attributes := fits.entries_perm
  have ordered : record.entries.map Prod.fst = kind.attributes.filter record.contains := by
    rw [keys_entries, fits.kind_eq]
  refine ⟨⟨fits.kind_eq, fits.known⟩, fun key value => ⟨stores_store record key value, fun error failed => ?_,
    fun _ => set_eq_ok_iff_store, fun _ => set_eq_error_iff_store⟩, ⟨shown, shown.length_eq, ordered⟩, rfl,
    fun key stored => ?_⟩
  · by_cases known : key ∈ record.kind.attributes
    · rw [store_known known] at failed
      cases failed
    · rw [store_unknown known]
  · obtain ⟨field, own, named, found⟩ := Field.resolve_of_mem (fits.known key stored)
    exact ⟨field, found, own, named⟩

/-- A refused attribute leaves no trace, and neither does the value that another one replaces. -/
theorem records_keep_vocabulary_refused :
    let start : Record := ⟨.book, [("ISBN", .text "0441172717"), ("title", .text "Dune")]⟩
    let tried := (start.store "name" .null).2
    let named := (tried.store "book_id" (.text "1")).2
    let record := (named.store "title" (.text "Emma")).2
    record.Reached .book ∧ tried = start ∧ record.kind = .book ∧ record.entries.Perm record.attributes ∧
      record.listing = "book_id: 1\ntitle: Emma\nISBN: 0441172717" := by
  intro start tried named record
  have texts : ∀ field ∈ start.attributes, IsOrdered field.2 :=
    List.forall_mem_cons.mpr ⟨.text _, List.forall_mem_singleton.mpr (.text _)⟩
  have begun : start.Reached .book := .ofJson (.object (by decide) texts) rfl
  have reached : record.Reached .book := ((begun.store _ _).store _ _).store _ _
  obtain ⟨⟨own, -⟩, -, ⟨shown, -⟩, -⟩ := records_keep_vocabulary reached
  obtain ⟨-, attempts, -⟩ := records_keep_vocabulary begun
  exact ⟨reached, (attempts "name" .null).2.1 _ rfl, own, shown, by decide +kernel⟩

end Record
end BookCatalog
