import BookCatalog.Proofs.Query.Compile
import BookCatalog.Proofs.Service.Bulk

/-!
What each call of the service sends. A call that gets past its own checks is one request and a way to read
its outcome, and this is where the calls that check or convert something first are opened.
-/
namespace BookCatalog.Service.Client

variable {client : Client} {kind : Kind}

/-- Every query names its kind, so a search for one is always sent. -/
theorem searchQuery_eq {query : Query} :
    client.searchQuery query =
      send ⟨.get, client.url searchPath "q" query.compile, none⟩ (found query.kind) := by
  simp only [searchQuery, search, query.kindOf_compile]

/-- The request that a ranking makes: the search for all records of a kind. -/
theorem top_eq {k : Nat} :
    client.top kind k = send ⟨.get, client.url searchPath "q" (Query.all kind).compile, none⟩ fun outcome =>
      (found kind outcome).map fun records => Ranking.top records scoreAttribute k := by
  have own : (Query.all kind).kind = kind := by
    cases kind <;> rfl
  rw [top, searchQuery_eq, own]
  rfl

theorem create_of_identified {record : Record} (identified : record.identifier?.isSome = true) :
    client.create record =
      send ⟨.post, client.base ++ recordPath record.kind, some record.toJson⟩ Outcome.reply := by
  obtain ⟨id, found⟩ := Option.isSome_iff_exists.mp identified
  simp only [create, found]

/-- A record without an identifier is refused before anything is sent. -/
theorem create_of_unidentified {record : Record} (unidentified : record.identifier?.isSome = false) :
    client.create record = .done (.error (.missingIdentifier record.kind)) := by
  have absent : record.identifier? = none := by simpa using unidentified
  simp only [create, absent]
  rfl

end BookCatalog.Service.Client
