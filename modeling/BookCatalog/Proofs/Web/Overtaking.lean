import BookCatalog.Proofs.Web.Failure
import BookCatalog.Proofs.Web.Ticket

/-!
An overtaken ranking is not shown. A ranking looks at the sequencer when its records are there, and
shows them only if its ticket is still the latest, so how long the service takes for which request
makes no difference to what is shown last.
-/
namespace BookCatalog.Web

open Service Interaction

/-- The tickets of the requests that were answered with data, in the order of their last steps. -/
def shown (server : Server) (history : List Moment) : List Ticket :=
  history.filterMap fun
    | .step number _ (some response) =>
      if response.status = 200 then server.jobs[number]?.bind Job.ticket? else none
    | _ => none

variable {app : App} {kind : Kind} {count : Option Nat} {history : List Moment} {server : Server}

/-- A ranking that is answered with data has the latest ticket. -/
theorem shown_is_latest {state state' : State} {call : Call} {past : List Occurrence} {op : Effect}
    {next : op.Answer → Handler Response} {answer : op.Answer} {response : Response} {ticket : Ticket}
    (left : (app.serve call).After past (.ask op next)) (taken : Effect.Takes state ⟨op, answer⟩ state')
    (final : next answer = .done response) (data : response.status = 200)
    (own : Job.ticket? ⟨call, past ++ [⟨op, answer⟩], next answer⟩ = some ticket) :
    Job.ticket? ⟨call, past, .ask op next⟩ = some ticket ∧ ticket = ⟨state.ranking.latest⟩ := by
  cases call with
  | top kind count =>
    cases top_stage left with
    | waiting => cases final
    | calling before =>
      unfold judge at final
      split at final
      · rename_i error wrong
        cases final
        have failure := found_error (rankingOf_error wrong)
        rw [show statusOf error = 200 from data] at failure
        cases failure
      · cases final
    | checking before right =>
      obtain ⟨rfl, -⟩ := takes_change.mp taken
      have current : Sequencer.isCurrent (State.ranking answer) before.ranking.issue.1 = true := by
        rw [← Interaction.done.inj final] at data
        by_contra stale
        rw [verdict, if_neg stale] at data
        cases data
      have first : issued? ⟨.change State.issue, before⟩ = some ticket := by
        simpa [Job.ticket?, issued?_issue] using own
      refine ⟨by simp [Job.ticket?, first], ?_⟩
      rw [issued?_issue] at first
      rw [← Option.some.inj first, beq_iff_eq.mp current]
  | get | delete | update | create | search | pending | append | flush | scrape =>
    rw [ticketless rfl (left.snoc answer)] at own
    cases own

theorem shown_append {earlier later : List Moment} :
    shown server (earlier ++ later) = shown server earlier ++ shown server later :=
  List.filterMap_append

/-- A step changes nothing about what was shown before it. -/
theorem shown_step {moment : Moment} {server' : Server} (reached : server.Reached app history)
    (step : Server.Step app server moment server') : shown server' history = shown server history := by
  refine List.filterMap_congr fun other member => ?_
  match other with
  | .arrival _ => rfl
  | .step _ _ none => rfl
  | .step number event (some response) =>
    obtain ⟨job, found, ended⟩ := finished_stays reached member
    simp only [found, step_keeps_done step found ended]

/-- What is shown before a step was issued to a request that has its response. -/
theorem mem_shown (reached : server.Reached app history) {ticket : Ticket}
    (member : ticket ∈ shown server history) :
    ∃ (number : Nat) (job : Job) (response : Response), server.jobs[number]? = some job ∧
      job.rest = .done response ∧ job.ticket? = some ticket := by
  obtain ⟨moment, held, made⟩ := List.mem_filterMap.mp member
  match moment with
  | .arrival _ => cases made
  | .step _ _ none => cases made
  | .step number event (some response) =>
    obtain ⟨job, found, ended⟩ := finished_stays reached held
    simp only [found, Option.bind_some] at made
    split at made
    · exact ⟨number, job, response, found, ended, made⟩
    · cases made

/-- What a step shows is the latest ticket, and belongs to a request that had no response yet. -/
theorem shown_moment (reached : server.Reached app history) {moment : Moment} {server' : Server}
    (step : Server.Step app server moment server') {ticket : Ticket}
    (member : ticket ∈ shown server' [moment]) :
    ticket = ⟨server.state.ranking.latest⟩ ∧ ∃ (number : Nat) (job : Job),
      server.jobs[number]? = some job ∧ job.ticket? = some ticket ∧
        ∀ response, job.rest ≠ .done response := by
  obtain ⟨single, held, made⟩ := List.mem_filterMap.mp member
  rw [List.mem_singleton] at held
  subst held
  cases step with
  | arrive => cases made
  | @advance state state' before behind call past op answer next taken =>
    cases final : next answer with
    | ask op next =>
      rw [final] at made
      cases made
    | done response =>
      simp only [final, Handler.response?, List.getElem?_append_right (Nat.le_refl _), Nat.sub_self,
        List.getElem?_cons_zero, Option.bind_some] at made
      split at made
      · rename_i data
        have own : Job.ticket? ⟨call, past ++ [⟨op, answer⟩], next answer⟩ = some ticket := made
        obtain ⟨had, latest⟩ := shown_is_latest (asking_after reached) taken final data own
        refine ⟨latest, before.length, ⟨call, past, .ask op next⟩, by simp, had, ?_⟩
        intro response ended
        cases ended
      · cases made

/-- Requests that are answered with data show newer and newer rankings. -/
theorem shown_pairwise (reached : server.Reached app history) (few : (tickets history).length < 2 ^ 64) :
    (shown server history).Pairwise fun ticket other => compare ticket other = .lt := by
  induction reached with
  | start => exact .nil
  | @step history moment server server' reached step ih =>
    have few' : (tickets history).length < 2 ^ 64 := by
      rw [tickets_append, List.length_append] at few
      omega
    rw [shown_append, shown_step reached step]
    refine List.pairwise_append.mpr ⟨ih few', ?_, ?_⟩
    · exact List.pairwise_filterMap.mpr (List.pairwise_singleton _ _)
    · intro earlier before latest now
      obtain ⟨number, job, response, found, ended, own⟩ := mem_shown reached before
      obtain ⟨rfl, number', job', found', own', under_way⟩ := shown_moment reached step now
      have issued : earlier ∈ tickets history := (jobs_tickets reached).mem_iff.mp
        (List.mem_filterMap.mpr ⟨job, List.mem_of_getElem? found, own⟩)
      obtain ⟨position, inside, rfl⟩ := ticketAt_of_mem reached issued
      have last : (⟨server.state.ranking.latest⟩ : Ticket) = ticketAt ((tickets history).length - 1) := by
        rw [latest_eq reached, ticketAt, Nat.sub_add_cancel (by omega)]
      -- The request shown now is not the one shown before, and each has a ticket of its own.
      have other : position ≠ (tickets history).length - 1 := by
        intro same
        rw [last, ← same] at own'
        obtain rfl := ticket_injective reached few' found found' own own'
        rw [found] at found'
        cases found'
        exact under_way response ended
      rw [last]
      exact ticketAt_lt (by omega) (by omega)

/-- A ranking whose request succeeded has its check ahead, or was checked and shows its entries
exactly if no ticket was issued since its own. -/
theorem top_checked (reached : server.Reached app history) (few : (tickets history).length < 2 ^ 64)
    {number : Nat} {job : Job} (found : server.jobs[number]? = some job) (ranks : job.call = .top kind count)
    {request : Request} {outcome : Outcome} {entries : List (Ranking.Entry Float)}
    (sent : (⟨.send request, outcome⟩ : Occurrence) ∈ job.past)
    (succeeded : (app.client.top kind (count.getD app.topK)).Runs [⟨request, outcome⟩] (.ok entries)) :
    (∃ next : State → Response, job.rest = .ask (.change id) fun now => .done (next now)) ∨
      ∃ (before between behind : List Moment) (issue check : Occurrence) (first last : Option Response),
        history = before ++ .step number issue first :: (between ++ .step number check last :: behind) ∧
        effectsOf number before = [] ∧ effectsOf number between = [⟨.send request, outcome⟩] ∧
        effectsOf number behind = [] ∧ issued? issue = job.ticket? ∧ job.ticket?.isSome ∧
        ∃ response, job.rest = .done response ∧
          if tickets between = [] then response.Ranks kind (count.getD app.topK) entries else response = .stale := by
  have left := job_after reached job (List.mem_of_getElem? found)
  have past_eq := effectsOf_eq_past reached number
  rw [found] at past_eq
  have right := rankingOf_of_runs succeeded
  obtain ⟨call, past, rest⟩ := job
  subst ranks
  cases top_stage left with
  | waiting => cases sent
  | calling before =>
    cases List.mem_singleton.mp sent
  | failed before wrong =>
    rcases sent with _ | ⟨_, _ | ⟨_, _ | _⟩⟩
    rw [wrong] at right
    cases right
  | checking before right' => exact .inl ⟨_, rfl⟩
  | checked before right' now =>
    rcases sent with _ | ⟨_, _ | ⟨_, _ | ⟨_, _ | _⟩⟩⟩
    obtain rfl := Except.ok.inj (right.symm.trans right')
    obtain ⟨earlier, first, later, rfl, before_idle, more⟩ := effectsOf_split [] past_eq
    obtain ⟨between, last, behind, rfl, called, behind_idle⟩ :=
      effectsOf_split [⟨.send (rankingRequest app.client kind), outcome⟩] more
    have current := current_iff reached few
    refine .inr ⟨earlier, between, behind, _, _, first, last, rfl, before_idle, called, behind_idle, ?_, ?_, _, rfl, ?_⟩
    · simp [Job.ticket?, issued?_issue]
    · simp [Job.ticket?, issued?_issue]
    · simp only [verdict, current]
      split
      · exact ofJson_topJson_ranks
      · rfl

/-- **A stale ranking is never shown over a newer one.** However rankings and other requests
overlap, as long as fewer than `2 ^ 64` tickets are issued: a ranking whose request succeeded shows
its entries if no ticket was issued between its own and its check, and is stale otherwise; the tickets
of the rankings shown go up in the order of their checks; no two tickets are current at a time; and
tickets compare in the order of issue. -/
theorem stale_ranking_never_shown (reached : server.Reached app history)
    (few : (tickets history).length < 2 ^ 64) :
    (∀ (number : Nat) (job : Job) (kind : Kind) (count : Option Nat) (request : Request)
        (outcome : Outcome) (entries : List (Ranking.Entry Float)),
      server.jobs[number]? = some job → job.call = .top kind count →
      (⟨.send request, outcome⟩ : Occurrence) ∈ job.past →
      (app.client.top kind (count.getD app.topK)).Runs [⟨request, outcome⟩] (.ok entries) →
      (∃ next : State → Response, job.rest = .ask (.change id) fun now => .done (next now)) ∨
        ∃ (before between behind : List Moment) (issue check : Occurrence) (first last : Option Response),
          history =
            before ++ .step number issue first :: (between ++ .step number check last :: behind) ∧
          effectsOf number before = [] ∧ effectsOf number between = [⟨.send request, outcome⟩] ∧
          effectsOf number behind = [] ∧ issued? issue = job.ticket? ∧ job.ticket?.isSome ∧
          ∃ response, job.rest = .done response ∧
            if tickets between = [] then response.Ranks kind (count.getD app.topK) entries
            else response = .stale) ∧
      (shown server history).Pairwise (fun ticket other => compare ticket other = .lt) ∧
      (tickets history).countP (server.state.ranking.isCurrent ·) ≤ 1 ∧
      (tickets history).Pairwise fun ticket other => compare ticket other = .lt := by
  refine ⟨?_, shown_pairwise reached few, one_current reached few, tickets_pairwise reached few⟩
  intro number job kind count request outcome entries found ranks sent succeeded
  exact top_checked reached few found ranks sent succeeded

/-- Two rankings overlap, and the first to start is the last to have its answer: it is stale, since the other one
was issued a ticket in between. The other one is shown, and so is a third one behind it. -/
theorem stale_ranking_never_shown_overtaken :
    ∃ history server, Server.Reached ⟨⟨"http://shelf"⟩, 5⟩ history server ∧
      (∃ job, server.jobs[0]? = some job ∧ job.rest = .done .stale) ∧
      (shown server history = [⟨2⟩, ⟨3⟩] ∧
        (shown server history).Pairwise fun ticket other => compare ticket other = .lt) ∧
      (tickets history).countP (server.state.ranking.isCurrent ·) ≤ 1 ∧
      (tickets history).Pairwise fun ticket other => compare ticket other = .lt := by
  let app : App := ⟨⟨"http://shelf"⟩, 5⟩
  have rest : Server.Reached app _ _ := .start
  have one := rest.step (.arrive _ _ (.top .book none))
  have issued := one.step (.advance [] [] _ _ _ (.change _ _))
  have two := issued.step (.arrive _ _ (.top .author none))
  have issued' := two.step (.advance [_] [] _ _ _ (.change _ _))
  have answered' := issued'.step (.advance [_] [] _ _ _ (.send _ _ (.answered 404 .empty)))
  have checked' := answered'.step (.advance [_] [] _ _ _ (.change _ _))
  have answered := checked'.step (.advance [] [_] _ _ _ (.send _ _ (.answered 404 .empty)))
  have checked := answered.step (.advance [] [_] _ _ _ (.change _ _))
  have three := checked.step (.arrive _ _ (.top .book none))
  have issued'' := three.step (.advance [_, _] [] _ _ _ (.change _ _))
  have answered'' := issued''.step (.advance [_, _] [] _ _ _ (.send _ _ (.answered 404 .empty)))
  have checked'' := answered''.step (.advance [_, _] [] _ _ _ (.change _ _))
  obtain ⟨verdicts, newer, single, ordered⟩ := stale_ranking_never_shown checked'' (by decide)
  have succeeded : (app.client.top .book 5).Runs [⟨rankingRequest app.client .book, .answered 404 .empty⟩]
      (.ok (Ranking.top [] scoreAttribute 5)) := by
    rw [clientTop_eq]
    exact .ask (.done _)
  refine ⟨_, _, checked'', ⟨_, rfl, ?_⟩, ⟨rfl, newer⟩, single, ordered⟩
  rcases verdicts 0 _ .book none _ _ _ rfl rfl (List.mem_cons_of_mem _ List.mem_cons_self) succeeded with
    ⟨next, asks⟩ | ⟨before, between, behind, issue, check, first, last, split, idle, -, -, -, -, response, ended, verdict⟩
  · cases asks
  suffices overtaken : tickets between ≠ [] by
    rw [if_neg overtaken] at verdict
    rw [ended, verdict]
  -- What comes between its first and its last step begins with the arrival and the first step of the other.
  change [_, _, _, _, _, _, _, _, _, _, _, _] = _ at split
  rcases before with _ | ⟨_, _ | ⟨_, before⟩⟩
  · cases (List.cons.inj split).1
  · have inside := (List.cons.inj (List.cons.inj split).2).2
    rcases between with _ | ⟨_, _ | ⟨_, between⟩⟩
    · cases (List.cons.inj inside).1
    · cases (List.cons.inj (List.cons.inj inside).2).1
    · obtain ⟨rfl, later⟩ := List.cons.inj inside
      obtain ⟨rfl, -⟩ := List.cons.inj later
      exact List.cons_ne_nil _ _
  · obtain ⟨rfl, later⟩ := List.cons.inj split
    obtain ⟨rfl, -⟩ := List.cons.inj later
    cases idle

end BookCatalog.Web
