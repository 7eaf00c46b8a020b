import BookCatalog.Proofs.Record.Body
import BookCatalog.Proofs.Service.Call
import BookCatalog.Proofs.Service.Outcome

/-!
The kind of what a search finds. A search is sent as a text and its kind is read off that text again, so
what comes back is held to the kind of the query only because no value can disguise it: the kind stands in
front of the first point, the field in front of the first colon behind that, and all the rest is the value.
-/
namespace BookCatalog

variable {kind : Kind}

/-- A clause is taken apart at its first point and the first colon behind it, whatever its value is. -/
theorem Clause.split_compile (clause : Clause) : ∃ behind,
    Text.splitOnce '.' clause.compile = some (clause.kind.name, behind) ∧
      Text.splitOnce ':' behind = some (clause.field.key, clause.value) := by
  refine ⟨.ofList (clause.field.key.toList ++ ':' :: clause.value.toList), ?_, ?_⟩
  · rw [Text.splitOnce, clause.toList_compile, Text.splitChars_append clause.kind.point_notMem_name]
    simp
  · rw [Text.splitOnce, String.toList_ofList, Text.splitChars_append clause.field.colon_notMem_key]
    simp

namespace Service

variable {outcome : Outcome} {records : List Record}

/-- Whatever the service answers, a search finds records of its kind or fails. -/
theorem kind_of_found (found : Client.found kind outcome = .ok records) :
    ∀ record ∈ records, record.kind = kind := by
  by_cases missing : ∃ body, outcome = .answered 404 body
  · obtain ⟨body, rfl⟩ := missing
    cases found
    simp
  · rw [found_eq_document (not_exists.mp missing)] at found
    obtain ⟨document, -, validated⟩ := bind_ok found
    exact fun record member => ((records_eq_ok_iff.mp validated).2 record member).1

/-- However a call goes, it asks once and reads what comes of it. -/
theorem send_runs_iff {α : Type} {request : Request} {read : Outcome → Except Error α}
    {events : List (Interaction.Event Request fun _ => Outcome)} {result : Except Error α} :
    (Client.send request read).Runs events result ↔
      ∃ outcome, events = [⟨request, outcome⟩] ∧ result = read outcome := by
  constructor
  · intro run
    obtain ⟨outcome, later, rfl, rest⟩ := Interaction.runs_ask.mp run
    obtain ⟨rfl, same⟩ := Interaction.runs_done.mp rest
    exact ⟨outcome, rfl, same⟩
  · rintro ⟨outcome, rfl, rfl⟩
    exact .ask (.done _)

end Service

/-- **The text of a query names its kind,** whatever its values look like. So however a search for it goes
and whatever the service answers, the records that it finds are of that kind. The text of a single clause
tells all of it: taken apart at the first point and the first colon behind that, it gives the kind, the
field and the value, and no other clause has the same text. -/
theorem text_names_kind :
    (∀ query : Query, Query.kindOf query.compile = .ok query.kind) ∧
      (∀ (client : Service.Client) (query : Query) events records,
        (client.searchQuery query).Runs events (.ok records) →
          ∀ record ∈ records, record.kind = query.kind) ∧
      (∀ clause : Clause, ∃ behind,
        Text.splitOnce '.' clause.compile = some (clause.kind.name, behind) ∧
          Text.splitOnce ':' behind = some (clause.field.key, clause.value)) ∧
      ∀ clause other : Clause, clause.compile = other.compile → clause = other := by
  refine ⟨Query.kindOf_compile, fun client query events records run => ?_, Clause.split_compile, ?_⟩
  · rw [Service.Client.searchQuery_eq] at run
    obtain ⟨outcome, -, found⟩ := Service.send_runs_iff.mp run
    exact Service.kind_of_found found.symm
  · exact fun clause other same => Clause.compile_injective same

/-- A value that looks like a clause of the other kind and like a second clause of its own changes nothing:
the search is one for books, and finds books. -/
theorem text_names_kind_disguised :
    let clause : Clause := ⟨.book .title, "author.name:xANDbook.ISBN:y"⟩
    let other : Clause := ⟨.book .title, "author.name:x" ++ "ANDbook.ISBN:y"⟩
    let search := Service.Client.searchQuery ⟨"http://shelf"⟩ (.single clause)
    let answer := Service.Outcome.answered 200 "[\x7b\"ISBN\":\"y\"\x7d]".toUTF8
    Query.kindOf "book.title:author.name:xANDbook.ISBN:y" = .ok .book ∧
      (∃ request record, search.Runs [⟨request, answer⟩] (.ok [record]) ∧ record.kind = .book) ∧
      (∃ behind, Text.splitOnce '.' clause.compile = some ("book", behind) ∧
        Text.splitOnce ':' behind = some ("title", "author.name:xANDbook.ISBN:y")) ∧
      clause.compile = other.compile ∧ clause = other := by
  intro clause other search answer
  obtain ⟨names, finds, splits, tells⟩ := text_names_kind
  have found : Service.Client.found .book answer = .ok [⟨.book, [("ISBN", .text "y")]⟩] := by
    with_unfolding_all rfl
  have sent : ∃ request, search.Runs [⟨request, answer⟩] (Service.Client.found .book answer) := by
    rw [show search = _ from Service.Client.searchQuery_eq]
    exact ⟨_, Service.send_runs_iff.mpr ⟨answer, rfl, rfl⟩⟩
  rw [found] at sent
  obtain ⟨request, run⟩ := sent
  have same : clause.compile = other.compile := by decide +kernel
  exact ⟨names (.single clause), ⟨request, _, run, finds _ _ _ _ run _ List.mem_cons_self⟩,
    splits clause, same, tells clause other same⟩

end BookCatalog
