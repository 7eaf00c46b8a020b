import Mathlib.Algebra.Group.Nat.Defs
import Mathlib.Data.List.Nodup
import BookCatalog.Proofs.Web.Stage

/-!
The tickets of a history. The sequencer counts them, whatever else happens to the shared state, so
they are numbered in the order of issue, each belongs to one request, and a ticket is current exactly
until the next one is issued.
-/
namespace BookCatalog.Web

open Service Interaction

/-- The ticket that an effect issues, if it moves the sequencer. -/
def issued? : Occurrence → Option Ticket
  | ⟨.send _, _⟩ => none
  | ⟨.change step, before⟩ =>
    if (step before).ranking.latest = before.ranking.latest then none
    else some ⟨(step before).ranking.latest⟩

/-- The tickets of a history, in the order of issue. -/
def tickets (history : List Moment) : List Ticket :=
  history.filterMap fun
    | .arrival _ => none
    | .step _ event _ => issued? event

/-- The ticket that a request has taken. -/
def Job.ticket? (job : Job) : Option Ticket := job.past.findSome? issued?

/-- Whether a request is one for a ranking. -/
def Call.ranks : Call → Bool
  | .top _ _ => true
  | _ => false

/-- An effect that leaves the sequencer alone. -/
def Effect.SparesRanking : Effect → Prop
  | .send _ => True
  | .change step => ∀ state, (step state).ranking = state.ranking

variable {app : App} {kind : Kind} {count : Option Nat} {history : List Moment} {server : Server}

theorem issued?_of_spares {op : Effect} {answer : op.Answer} (spares : op.SparesRanking) :
    issued? ⟨op, answer⟩ = none := by
  cases op with
  | send => rfl
  | change step => simp [issued?, spares answer]

theorem issued?_issue {before : State} :
    issued? ⟨.change State.issue, before⟩ = some before.ranking.issue.1 := by
  have moves : before.ranking.latest + 1 ≠ before.ranking.latest := by
    intro same
    have values := congrArg UInt64.toNat same
    have bound := before.ranking.latest.toNat_lt
    simp only [UInt64.toNat_add, UInt64.toNat_one] at values
    omega
  simp [issued?, State.issue, Sequencer.issue, moves]

/-- A call of the service leaves the sequencer alone. -/
theorem exchange_spares_ranking {α : Type} (exchange : Exchange α) :
    exchange.Keeps (fun _ => True) fun request => Effect.SparesRanking (.send request) := by
  induction exchange with
  | done => exact trivial
  | ask request next ih => exact ⟨trivial, fun outcome _ => ih outcome⟩

theorem call_spares_ranking {α : Type} (exchange : Exchange α) :
    (Handler.call exchange).Keeps (fun _ => True) Effect.SparesRanking :=
  Handler.call_keeps (exchange_spares_ranking exchange)

/-- Only rankings take tickets. -/
theorem serve_spares_ranking {call : Call} (other : call.ranks = false) :
    (app.serve call).Keeps (fun _ => True) Effect.SparesRanking := by
  cases call with
  | top => cases other
  | get | delete | scrape => exact .bind (call_spares_ranking _) fun _ => trivial
  | update | create =>
    simp only [App.serve, App.update, App.create]
    split
    · exact trivial
    · exact .bind (call_spares_ranking _) fun _ => trivial
  | search parameters =>
    simp only [App.serve, App.search]
    split
    · exact trivial
    · refine .bind (call_spares_ranking _) fun result => ?_
      cases result <;> exact trivial
  | pending kind => exact ⟨fun state => rfl, fun _ _ => trivial⟩
  | append kind body =>
    cases read : Record.ofJson kind body with
    | error error =>
      rw [App.serve, append_refused read]
      exact trivial
    | ok record =>
      rw [App.serve, append_eq read]
      exact ⟨fun state => State.ranking_append, fun _ _ => trivial⟩
  | flush kind =>
    simp only [App.serve, App.flush, Handler.change_bind]
    refine ⟨fun state => State.ranking_clear, fun before _ => ?_⟩
    refine .bind (call_spares_ranking _) fun ⟨result, left⟩ => ?_
    dsimp only
    split
    · exact trivial
    · exact ⟨fun state => State.ranking_restore, fun _ _ => trivial⟩

/-- What a request asks for leaves the sequencer alone, unless it is a ranking at its start. -/
theorem asked_issues {call : Call} {past : List Occurrence} {op : Effect}
    {next : op.Answer → Handler Response} (left : (app.serve call).After past (.ask op next)) :
    op.SparesRanking ∨ past = [] ∧ op = .change State.issue := by
  cases call with
  | top kind count =>
    cases top_stage left with
    | waiting => exact .inr ⟨rfl, rfl⟩
    | calling => exact .inl trivial
    | checking => exact .inl fun state => rfl
  | get | delete | update | create | search | pending | append | flush | scrape =>
    exact .inl ((serve_spares_ranking rfl).after left fun _ _ => trivial).1

/-! ## Tickets -/

/-- The ticket issued behind so many others. -/
def ticketAt (position : Nat) : Ticket := ⟨UInt64.ofNat (position + 1)⟩

theorem tickets_append {earlier later : List Moment} :
    tickets (earlier ++ later) = tickets earlier ++ tickets later := List.filterMap_append

/-- What a moment does to the sequencer: nothing, or it issues the next ticket. -/
theorem step_issues {moment : Moment} {server' : Server} (reached : server.Reached app history)
    (step : Server.Step app server moment server') :
    tickets [moment] = [] ∧ server'.state.ranking = server.state.ranking ∨
      tickets [moment] = [server.state.ranking.issue.1] ∧
        server'.state.ranking = server.state.ranking.issue.2 := by
  cases step with
  | arrive => exact .inl ⟨rfl, rfl⟩
  | @advance state state' before behind call past op answer next taken =>
    rcases asked_issues (asking_after reached) with spares | ⟨-, rfl⟩
    · refine .inl ⟨by simp [tickets, issued?_of_spares spares], ?_⟩
      cases taken with
      | change => exact spares state
      | send => rfl
    · obtain ⟨rfl, rfl⟩ := takes_change.mp taken
      exact .inr ⟨by simp [tickets, issued?_issue], rfl⟩

/-- The sequencer counts the tickets. -/
theorem latest_eq (reached : server.Reached app history) :
    server.state.ranking.latest = UInt64.ofNat (tickets history).length := by
  induction reached with
  | start => rfl
  | step reached step ih =>
    rw [tickets_append]
    rcases step_issues reached step with ⟨kept, same⟩ | ⟨one, next⟩
    · simp [kept, same, ih]
    · simp [one, next, Sequencer.issue, ih]

/-- The tickets are numbered in the order of issue. -/
theorem tickets_eq (reached : server.Reached app history) :
    tickets history = (List.range (tickets history).length).map ticketAt := by
  induction reached with
  | start => rfl
  | step reached step ih =>
    rw [tickets_append]
    rcases step_issues reached step with ⟨kept, same⟩ | ⟨one, next⟩
    · simpa [kept] using ih
    · rw [one, List.length_append, List.length_singleton, List.range_succ, List.map_append, ← ih]
      simp [Sequencer.issue, ticketAt, latest_eq reached]

theorem ticketAt_of_mem (reached : server.Reached app history) {ticket : Ticket}
    (issued : ticket ∈ tickets history) :
    ∃ position, position < (tickets history).length ∧ ticketAt position = ticket := by
  rw [tickets_eq reached] at issued
  obtain ⟨position, inside, made⟩ := List.mem_map.mp issued
  exact ⟨position, List.mem_range.mp inside, made⟩

theorem ticketAt_lt {position other : Nat} (less : position < other) (few : other + 1 < 2 ^ 64) :
    compare (ticketAt position) (ticketAt other) = .lt := by
  refine compareOfLessAndEq_eq_lt.mpr (UInt64.lt_iff_toNat_lt.mpr ?_)
  have few' : position + 1 < 2 ^ 64 := by omega
  have own : (ticketAt position).position.toNat = position + 1 := UInt64.toNat_ofNat_of_lt' few'
  have own' : (ticketAt other).position.toNat = other + 1 := UInt64.toNat_ofNat_of_lt' few
  omega

theorem ne_of_compare {ticket other : Ticket} (less : compare ticket other = .lt) : ticket ≠ other := by
  rintro rfl
  exact UInt64.lt_irrefl _ (compareOfLessAndEq_eq_lt.mp less)

/-- Tickets compare in the order of issue. -/
theorem tickets_pairwise (reached : server.Reached app history) (few : (tickets history).length < 2 ^ 64) :
    (tickets history).Pairwise fun ticket other => compare ticket other = .lt := by
  rw [tickets_eq reached, List.pairwise_map]
  refine List.pairwise_lt_range.imp_of_mem fun _ member less => ?_
  exact ticketAt_lt less (by have := List.mem_range.mp member; omega)

theorem tickets_nodup (reached : server.Reached app history) (few : (tickets history).length < 2 ^ 64) :
    (tickets history).Nodup :=
  (tickets_pairwise reached few).imp ne_of_compare

/-- Of all tickets one at most is current. -/
theorem one_current (reached : server.Reached app history) (few : (tickets history).length < 2 ^ 64) :
    (tickets history).countP (server.state.ranking.isCurrent ·) ≤ 1 := by
  have only : ∀ ticket : Ticket,
      server.state.ranking.isCurrent ticket = (ticket == ⟨server.state.ranking.latest⟩) := by
    intro ticket
    rw [Bool.eq_iff_iff]
    simp only [Sequencer.isCurrent, beq_iff_eq]
    constructor
    · intro same
      rw [same]
    · rintro rfl
      rfl
  simp only [only]
  exact List.nodup_iff_count_le_one.mp (tickets_nodup reached few) _

theorem ticket?_snoc {call : Call} {past : List Occurrence} {event : Occurrence}
    {rest rest' : Handler Response} :
    Job.ticket? ⟨call, past ++ [event], rest'⟩ = (Job.ticket? ⟨call, past, rest⟩).or (issued? event) := by
  simp [Job.ticket?, List.findSome?_append]

/-- The tickets that requests have taken are the tickets issued: each is one request's own. -/
theorem jobs_tickets (reached : server.Reached app history) :
    (server.jobs.filterMap Job.ticket?).Perm (tickets history) := by
  induction reached with
  | start => exact .nil
  | @step history moment server server' reached step ih =>
    rw [tickets_append]
    cases step with
    | arrive state jobs call =>
      have fresh : Job.ticket? ⟨call, [], app.serve call⟩ = none := rfl
      simpa [tickets, fresh] using ih
    | @advance state state' before behind call past op answer next taken =>
      have moved := @ticket?_snoc call past ⟨op, answer⟩ (.ask op next) (next answer)
      simp only [List.filterMap_append, List.filterMap_cons] at ih ⊢
      rcases asked_issues (asking_after reached) with spares | ⟨rfl, rfl⟩
      · rw [issued?_of_spares spares, Option.or_none] at moved
        simpa [moved, tickets, issued?_of_spares spares] using ih
      · have waiting : Job.ticket? ⟨call, [], .ask (.change State.issue) next⟩ = none := rfl
        rw [waiting, Option.none_or, issued?_issue] at moved
        simp only [moved, waiting] at ih ⊢
        have issued : tickets [.step before.length ⟨.change State.issue, answer⟩
            (Handler.response? (next answer))] = [answer.ranking.issue.1] := by
          simp [tickets, issued?_issue]
        rw [issued]
        exact List.perm_middle.trans ((ih.cons _).trans (List.perm_append_singleton _ _).symm)

/-- Two requests of different numbers never have one ticket. -/
theorem ticket_injective (reached : server.Reached app history) (few : (tickets history).length < 2 ^ 64)
    {number other : Nat} {job job' : Job} {ticket : Ticket} (found : server.jobs[number]? = some job)
    (found' : server.jobs[other]? = some job') (own : job.ticket? = some ticket)
    (own' : job'.ticket? = some ticket) : number = other := by
  have distinct := (jobs_tickets reached).nodup_iff.mpr (tickets_nodup reached few)
  have apart := List.pairwise_iff_getElem.mp (List.pairwise_filterMap.mp distinct)
  obtain ⟨inside, rfl⟩ := List.getElem?_eq_some_iff.mp found
  obtain ⟨inside', rfl⟩ := List.getElem?_eq_some_iff.mp found'
  rcases Nat.lt_trichotomy number other with less | same | more
  · exact absurd rfl (apart _ _ inside inside' less _ own _ own')
  · exact same
  · exact absurd rfl (apart _ _ inside' inside more _ own' _ own)

theorem ticketless {call : Call} {past : List Occurrence} {rest : Handler Response}
    (other : call.ranks = false) (left : (app.serve call).After past rest) :
    Job.ticket? ⟨call, past, rest⟩ = none := by
  have spared := (serve_spares_ranking other).asked left fun _ _ => trivial
  exact List.findSome?_eq_none_iff.mpr fun event member => issued?_of_spares (spared event member)

theorem ofNat_injective {count other : Nat} (few : count < 2 ^ 64) (few' : other < 2 ^ 64)
    (same : UInt64.ofNat count = UInt64.ofNat other) : count = other := by
  have values := congrArg UInt64.toNat same
  rwa [UInt64.toNat_ofNat_of_lt' few, UInt64.toNat_ofNat_of_lt' few'] at values

/-- A ticket is current exactly if none was issued behind it. -/
theorem current_iff {earlier between later : List Moment} {number : Nat} {before now : State}
    {first last : Option Response}
    (reached : server.Reached app (earlier ++ .step number ⟨.change State.issue, before⟩ first ::
      (between ++ .step number ⟨.change id, now⟩ last :: later)))
    (few : (tickets (earlier ++ .step number ⟨.change State.issue, before⟩ first ::
      (between ++ .step number ⟨.change id, now⟩ last :: later))).length < 2 ^ 64) :
    now.ranking.isCurrent before.ranking.issue.1 = true ↔ tickets between = [] := by
  obtain ⟨start, reached_start, started⟩ := state_before reached
  have whole : earlier ++ .step number ⟨.change State.issue, before⟩ first ::
      (between ++ .step number ⟨.change id, now⟩ last :: later) =
      (earlier ++ .step number ⟨.change State.issue, before⟩ first :: between) ++
        .step number ⟨.change id, now⟩ last :: later := by simp
  rw [whole] at reached
  obtain ⟨check, reached_check, checked⟩ := state_before reached
  have count := latest_eq reached_start
  have count' := latest_eq reached_check
  have one : tickets [.step number ⟨.change State.issue, before⟩ first] = [before.ranking.issue.1] := by
    simp [tickets, issued?_issue]
  rw [List.append_cons, tickets_append, tickets_append, one] at count'
  rw [List.append_cons, tickets_append, tickets_append, tickets_append, one] at few
  rw [started] at count
  rw [checked] at count'
  simp only [List.length_append, List.length_singleton] at count' few
  simp only [Sequencer.isCurrent, Sequencer.issue, count, count', beq_iff_eq]
  rw [← UInt64.ofNat_one, ← UInt64.ofNat_add]
  constructor
  · intro same
    have equal := ofNat_injective (by omega) (by omega) same
    exact List.eq_nil_of_length_eq_zero (by omega)
  · intro empty
    rw [empty, List.length_nil, Nat.add_zero]

end BookCatalog.Web
