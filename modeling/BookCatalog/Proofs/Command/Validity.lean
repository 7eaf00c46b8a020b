import BookCatalog.Command.Arguments
import BookCatalog.Proofs.Command.Assignment
import BookCatalog.Proofs.Query.Search

/-!
Which commands can be carried out. A command is valid by what it is given, by the environment and by what
is in a file, and by nothing that the service could say. Each check is held to a condition of its own on
the texts that it reads.
-/
namespace BookCatalog

/-- Variables that can be read as settings. Any text will do for the base URL. -/
structure Environment.IsValid (environment : Environment) : Prop where
  bind : ∀ text, environment.uiBind = some text → ∃ address, Address.read? text = some address
  topK : ∀ text, environment.topK = some text →
    ∃ count, Decimal.readCount Decimal.countBound (Text.trim text) = .ok count

/-- A text that is an array of records of a kind. -/
def Json.ListsRecords (kind : Kind) (content : String) : Prop :=
  ∃ items, Json.read? content = some (.array items) ∧ ∀ item ∈ items, item.IsRecord kind

variable {environment : Environment} {settings : Settings} {kind : Kind} {content : String}

theorem Settings.isValid_of_ofEnvironment (done : Settings.ofEnvironment environment = .ok settings) :
    environment.IsValid where
  bind text given := by
    cases read : Address.read? text with
    | some address => exact ⟨address, rfl⟩
    | none =>
      simp only [Settings.ofEnvironment, given, read] at done
      cases done
  topK text given := by
    cases read : Decimal.readCount Decimal.countBound (Text.trim text) with
    | ok count => exact ⟨count, rfl⟩
    | error problem =>
      simp only [Settings.ofEnvironment, given, read] at done
      split at done
      · cases done
      · split at done <;> cases done

theorem Settings.exists_ofEnvironment (valid : environment.IsValid) :
    ∃ settings, Settings.ofEnvironment environment = .ok settings := by
  unfold Settings.ofEnvironment
  cases bound : environment.uiBind with
  | none =>
    cases counted : environment.topK with
    | none => exact ⟨_, rfl⟩
    | some text =>
      obtain ⟨count, read⟩ := valid.topK text counted
      simp only [read]
      exact ⟨_, rfl⟩
  | some text =>
    obtain ⟨address, read⟩ := valid.bind text bound
    simp only [read]
    cases counted : environment.topK with
    | none => exact ⟨_, rfl⟩
    | some text =>
      obtain ⟨count, read⟩ := valid.topK text counted
      simp only [read]
      exact ⟨_, rfl⟩

namespace Command

/-- A search that can be carried out: its field is one of the kind, and if a second clause is given in
full, so is the field of that. -/
structure Search.IsValid (wanted : Search) : Prop where
  field : wanted.field ∈ wanted.kind.attributes
  field2 : ∀ operator field2 value2, wanted.operator = some operator → wanted.field2 = some field2 →
    wanted.value2 = some value2 → field2 ∈ wanted.kind.attributes

/-- A command that can be carried out, by what it is given and by what is in the files. -/
def IsValid (files : String → Option String) : Command → Prop
  | .get .. | .delete .. | .top .. | .scrape _ => True
  | .search wanted => wanted.IsValid
  | .update kind _ assignments => ∀ assignment ∈ assignments, IsAssignment kind assignment
  | .create kind assignments => (∀ assignment ∈ assignments, IsAssignment kind assignment) ∧
    ∃ assignment ∈ assignments, Names assignment (Field.identifier kind).key
  | .createMany kind file => ∃ content, files file = some content ∧ Json.ListsRecords kind content

/-- A search with a second clause in full joins two clauses, and any other has the first alone. -/
theorem Search.query_ruled (wanted : Search) :
    (∃ operator field2 value2, (wanted.operator = some operator ∧ wanted.field2 = some field2 ∧
        wanted.value2 = some value2) ∧
      Joins wanted.kind wanted.field wanted.value operator field2 value2 wanted.query) ∨
    (∀ operator field2 value2, wanted.operator = some operator → wanted.field2 = some field2 →
        wanted.value2 ≠ some value2) ∧
      Selects wanted.kind wanted.field wanted.value wanted.query := by
  unfold Search.query
  dsimp only
  split
  · rename_i operator field2 value2 joined second asked
    exact .inl ⟨operator, field2, value2, ⟨joined, second, asked⟩, joins_of_resolve⟩
  · rename_i lacking
    exact .inr ⟨lacking, selects_of_resolve⟩

/-- A search that comes to a query is valid, and its query is of the kind. -/
theorem Search.isValid_of_query {wanted : Search} {query : Query} (asked : wanted.query = .ok query) :
    wanted.IsValid ∧ query.kind = wanted.kind := by
  rcases wanted.query_ruled with ⟨operator, field2, value2, given, joins⟩ | ⟨lacking, selects⟩
  · rw [asked] at joins
    obtain ⟨first, second, own⟩ := joins.ok
    refine ⟨⟨first, ?_⟩, own⟩
    rintro _ field2' _ - second' -
    rw [given.2.1] at second'
    cases second'
    exact second
  · rw [asked] at selects
    obtain ⟨first, own⟩ := selects.ok
    refine ⟨⟨first, ?_⟩, own⟩
    intro operator field2 value2 joined second third
    exact absurd third (lacking operator field2 value2 joined second)

theorem Search.exists_query {wanted : Search} (valid : wanted.IsValid) :
    ∃ query, wanted.query = .ok query := by
  cases asked : wanted.query with
  | ok query => exact ⟨query, rfl⟩
  | error error =>
    rcases wanted.query_ruled with ⟨operator, field2, value2, ⟨joined, second, third⟩, joins⟩ | ⟨-, selects⟩
    · rw [asked] at joins
      exact absurd (valid.field2 _ _ _ joined second third) (joins.error.1 valid.field)
    · rw [asked] at selects
      exact absurd valid.field selects.error.1

theorem readRecords_ok {records : List Record} (done : readRecords kind content = .ok records) :
    Json.ListsRecords kind content ∧ ∀ record ∈ records, record.kind = kind := by
  unfold readRecords at done
  split at done
  · cases done
  · rename_i items read
    cases whole : items.mapM (Record.ofJson kind) with
    | error error =>
      rw [whole] at done
      cases done
    | ok list =>
      rw [whole] at done
      cases done
      have each := exists_mapM_iff.mp ⟨records, whole⟩
      refine ⟨⟨items, read, fun item member => Record.exists_ofJson_iff.mp (each item member)⟩, ?_⟩
      intro record member
      obtain ⟨item, -, came⟩ := exists_of_mem_mapM whole record member
      exact Record.kind_of_ofJson came
  · cases done

theorem exists_readRecords (listed : Json.ListsRecords kind content) :
    ∃ records, readRecords kind content = .ok records := by
  obtain ⟨items, read, valid⟩ := listed
  obtain ⟨records, done⟩ := exists_mapM_iff.mpr fun item member => Record.exists_ofJson_iff.mpr (valid item member)
  exact ⟨records, by simp only [readRecords, read, done]; rfl⟩

end Command
end BookCatalog
