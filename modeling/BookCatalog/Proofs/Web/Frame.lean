import BookCatalog.Proofs.Web.Failure
import BookCatalog.Proofs.Web.Pending
import BookCatalog.Proofs.Web.Ticket

/-!
What each request changes of the state that all of them share, and what it leaves alone. A single step is held
to this first, whatever others do before and behind it. A request that has the front end to itself is one step
after the other, so it changes what its steps may change.
-/
namespace BookCatalog.Web

open Service Interaction

variable {app : App} {kind own : Kind} {body : Json} {call : Call} {history : List Moment} {server : Server}
  {past : List Occurrence} {rest : Handler Response} {state state' : State} {op : Effect} {answer : op.Answer}
  {next : op.Answer → Handler Response} {response : Response}

/-- What one step of a request may do to the state, by how much it had done before. It leaves the batches of
other kinds as they are; an append adds its record at the end and shows the whole batch; and the first step of
a ranking issues one ticket, which no other step does. -/
structure Confined (call : Call) (past : List Occurrence) (state : State) (rest : Handler Response)
    (state' : State) : Prop where
  others : ∀ kind, call.batch? ≠ some kind → state'.batch kind = state.batch kind
  appended : ∀ kind body, call = .append kind body → ∃ record, Record.ofJson kind body = .ok record ∧
    (state'.batch kind).records = (state.batch kind).records ++ [record] ∧
    ∃ response, rest = .done response ∧ response.Lists kind (state'.batch kind).records
  ranking : state'.ranking.latest =
    state.ranking.latest + if call.ranks = true ∧ past = [] then 1 else 0

/-- A request that has the front end to itself, from the state that it finds to the one that it leaves. -/
inductive Alone : State → Handler Response → Response → State → Prop where
  | done (state : State) (response : Response) : Alone state (.done response) response state
  | ask {state state' state'' : State} {op : Effect} {answer : op.Answer}
      {next : op.Answer → Handler Response} {response : Response}
      (taken : Effect.Takes state ⟨op, answer⟩ state') (rest : Alone state' (next answer) response state'') :
      Alone state (.ask op next) response state''

/-! ## Single steps -/

theorem spares_others (relied : ∀ event ∈ past, Relies State.Sound event)
    (left : (app.serve call).After past (.ask op next)) (taken : Effect.Takes state ⟨op, answer⟩ state')
    (other : call.batch? ≠ some kind) : state'.batch kind = state.batch kind := by
  cases taken with
  | send => rfl
  | change step =>
    cases call with
    | get | delete | update | create | search | top | pending | scrape =>
      exact ((serve_spares_batches rfl).after left fun _ _ => trivial).1 state kind
    | append own body =>
      have apart : kind ≠ own := fun same => other (congrArg some same.symm)
      cases append_stage app left with
      | waiting => rw [State.batch_append, if_neg apart]
    | flush own =>
      have apart : kind ≠ own := fun same => other (congrArg some same.symm)
      cases flush_stage relied left with
      | waiting => rw [State.batch_clear, if_neg apart]
      | restoring => rw [State.batch_restore, if_neg apart]

theorem append_adds (app : App) (sound : state.Sound) (left : (app.append kind body).After past (.ask op next))
    (taken : Effect.Takes state ⟨op, answer⟩ state') :
    ∃ record, Record.ofJson kind body = .ok record ∧
      (state'.batch kind).records = (state.batch kind).records ++ [record] ∧
      ∃ response, next answer = .done response ∧ response.Lists kind (state'.batch kind).records := by
  cases append_stage app left with
  | @waiting record read =>
    obtain ⟨rfl, rfl⟩ := takes_change.mp taken
    have own := Record.kind_of_ofJson read
    exact ⟨record, read, sound.records_append own, _, rfl, appendResponse_lists sound own⟩

/-- The first step of a ranking issues a ticket, and no other step of any request does. -/
theorem step_counts (left : (app.serve call).After past (.ask op next))
    (taken : Effect.Takes state ⟨op, answer⟩ state') :
    state'.ranking.latest =
      state.ranking.latest + if call.ranks = true ∧ past = [] then 1 else 0 := by
  have still : ¬ (call.ranks = true ∧ past = []) → op.SparesRanking →
      state'.ranking.latest =
        state.ranking.latest + if call.ranks = true ∧ past = [] then 1 else 0 := by
    intro idle spares
    rw [if_neg idle, UInt64.add_zero]
    cases taken with
    | change => rw [spares state]
    | send => rfl
  cases ranks : call.ranks with
  | false =>
    rw [ranks] at still
    exact still (by simp) ((serve_spares_ranking ranks).after left fun _ _ => trivial).1
  | true =>
    cases call with
    | top kind count =>
      cases top_stage left with
      | waiting =>
        obtain ⟨rfl, rfl⟩ := takes_change.mp taken
        rfl
      | calling => exact still (by simp) trivial
      | checking => exact still (by simp) fun state => rfl
    | get | delete | update | create | search | pending | append | flush | scrape => cases ranks

/-- Every step of every request is confined, on any state that a front end can be in. -/
theorem step_confined (sound : state.Sound) (relied : ∀ event ∈ past, Relies State.Sound event)
    (left : (app.serve call).After past (.ask op next)) (taken : Effect.Takes state ⟨op, answer⟩ state') :
    Confined call past state (next answer) state' where
  others kind other := spares_others relied left taken other
  appended := by
    rintro kind body rfl
    exact append_adds app sound left taken
  ranking := step_counts left taken

/-! ## Whole requests -/

/-- A step leaves behind what the next one of the same request relies on. -/
theorem step_sound (sound : state.Sound) (relied : ∀ event ∈ past, Relies State.Sound event)
    (left : (app.serve call).After past (.ask op next)) (taken : Effect.Takes state ⟨op, answer⟩ state') :
    state'.Sound ∧ ∀ event ∈ past ++ [⟨op, answer⟩], Relies State.Sound event := by
  have keeps := (serve_sound call).after left relied
  refine ⟨?_, List.forall_mem_append.mpr ⟨relied, List.forall_mem_singleton.mpr ?_⟩⟩
  · cases taken with
    | change => exact keeps.1 state sound
    | send => exact sound
  · cases taken with
    | change => exact sound
    | send => exact trivial

/-- A ranking has something to do before it is done. -/
theorem ranking_not_done (ranks : call.ranks = true) : ¬ (app.serve call).After [] (.done response) := by
  intro left
  cases call with
  | top => cases top_stage left
  | get | delete | update | create | search | pending | append | flush | scrape => cases ranks

/-- What is left of a request changes what its steps may change, taken on a state one after the other. -/
theorem alone_spares_others (alone : Alone state rest response state') (sound : state.Sound)
    (relied : ∀ event ∈ past, Relies State.Sound event) (left : (app.serve call).After past rest)
    (other : call.batch? ≠ some kind) : state'.batch kind = state.batch kind := by
  induction alone generalizing past with
  | done => rfl
  | @ask state state' state'' op answer next response taken rest ih =>
    obtain ⟨sound', relied'⟩ := step_sound sound relied left taken
    exact (ih sound' relied' (left.snoc answer)).trans (spares_others relied left taken other)

theorem alone_counts (alone : Alone state rest response state') (left : (app.serve call).After past rest) :
    state'.ranking.latest =
      state.ranking.latest + if call.ranks = true ∧ past = [] then 1 else 0 := by
  induction alone generalizing past with
  | done =>
    rw [if_neg, UInt64.add_zero]
    rintro ⟨ranks, rfl⟩
    exact ranking_not_done ranks left
  | @ask state state' state'' op answer next response taken rest ih =>
    rw [ih (left.snoc answer), step_counts left taken]
    simp

/-- An append by itself: one that is no record changes nothing, and any other adds its record. -/
theorem append_alone (alone : Alone state rest response state') (sound : state.Sound)
    (left : (app.serve (.append kind body)).After [] rest) :
    (¬ body.IsRecord kind → state' = state ∧ response.status = badRequest) ∧
      ∀ record, Record.ofJson kind body = .ok record →
        (state'.batch kind).records = (state.batch kind).records ++ [record] ∧
          response.Lists kind (state'.batch kind).records := by
  cases append_stage app left with
  | refused wrong =>
    cases alone
    refine ⟨fun _ => ⟨rfl, badRequest_of_refused ofJson_validates wrong⟩, fun record read => ?_⟩
    rw [wrong] at read
    cases read
  | waiting read =>
    refine ⟨fun invalid => absurd (Record.exists_ofJson_iff.mp ⟨_, read⟩) invalid, fun record read => ?_⟩
    cases alone with
    | ask taken last =>
      obtain ⟨record', read', grown, response, ended, lists⟩ := append_adds app sound left taken
      cases read.symm.trans read'
      dsimp only at last
      rw [ended] at last
      cases last
      exact ⟨grown, lists⟩

/-- **Each request changes its own part of the shared state and nothing else.** Whatever requests are under way
and whatever the service answers, each step of one is confined to its part, an arrival is no step, and an
append of what is no record of the kind takes none. So, from any state that a front end can be in, a request
leaves the batch of each kind that it does not work on; an append of no record leaves everything, and one of a
record adds it at the end and shows the batch with its new size; and a ranking issues one ticket, and nothing
else issues any. -/
theorem requests_change_their_part (reached : server.Reached app history) :
    (∀ number event last server', Server.Step app server (.step number event last) server' →
      ∃ job job', server.jobs[number]? = some job ∧ server'.jobs[number]? = some job' ∧
        Confined job.call job.past server.state job'.rest server'.state) ∧
    (∀ call server', Server.Step app server (.arrival call) server' → server'.state = server.state) ∧
    (∀ job ∈ server.jobs, ∀ kind body, job.call = .append kind body → ¬ body.IsRecord kind →
      job.past = [] ∧ ∃ error, job.rest = .done (.ofError error) ∧ statusOf error = badRequest) ∧
    ∀ call response state', Alone server.state (app.serve call) response state' →
      (∀ kind, call.batch? ≠ some kind → state'.batch kind = server.state.batch kind) ∧
      (∀ kind body, call = .append kind body → ¬ body.IsRecord kind →
        state' = server.state ∧ response.status = badRequest) ∧
      (∀ kind body record, call = .append kind body → Record.ofJson kind body = .ok record →
        (state'.batch kind).records = (server.state.batch kind).records ++ [record] ∧
          response.Lists kind (state'.batch kind).records) ∧
      state'.ranking.latest = server.state.ranking.latest + if call.ranks = true then 1 else 0 := by
  have sound := (job_sound reached).1
  have silent : ∀ event ∈ ([] : List Occurrence), Relies State.Sound event := List.forall_mem_nil _
  refine ⟨?step, ?arrival, ?refused, ?alone⟩
  case step =>
    rintro number event last server' step
    generalize moment_eq : Moment.step number event last = moment at step
    cases step with
    | arrive => cases moment_eq
    | @advance state state' before behind call past op answer next taken =>
      cases moment_eq
      obtain ⟨sound, relied⟩ := asking_sound reached
      refine ⟨⟨call, past, .ask op next⟩, ⟨call, past ++ [⟨op, answer⟩], next answer⟩, by simp, by simp, ?_⟩
      exact step_confined sound relied (asking_after reached) taken
  case arrival =>
    rintro call server' step
    generalize moment_eq : Moment.arrival call = moment at step
    cases step with
    | arrive => rfl
    | advance => cases moment_eq
  case refused =>
    intro job member kind body appends invalid
    have left := job_after reached job member
    obtain ⟨call, past, rest⟩ := job
    subst appends
    cases append_stage app left with
    | refused wrong => exact ⟨rfl, _, rfl, badRequest_of_refused ofJson_validates wrong⟩
    | waiting read => exact absurd (Record.exists_ofJson_iff.mp ⟨_, read⟩) invalid
    | added read => exact absurd (Record.exists_ofJson_iff.mp ⟨_, read⟩) invalid
  case alone =>
    intro call response state' alone
    refine ⟨fun kind other => alone_spares_others alone sound silent (.start _) other, ?_, ?_, ?_⟩
    · rintro kind body rfl
      exact (append_alone alone sound (.start _)).1
    · rintro kind body record rfl
      exact (append_alone alone sound (.start _)).2 record
    · rw [alone_counts alone (.start _)]
      simp

/-- A record is added behind one that waits, and the response shows both. -/
theorem requests_change_their_part_second :
    let dune : Record := ⟨.book, [("title", .text "Dune")]⟩
    let emma : Record := ⟨.book, [("title", .text "Emma")]⟩
    ∃ history server response state', Server.Reached ⟨⟨"http://shelf"⟩, 5⟩ history server ∧
      Alone server.state (App.serve ⟨⟨"http://shelf"⟩, 5⟩ (.append .book emma.toJson)) response state' ∧
      response.body = "\x7b\"kind\":\"book\",\"pending\":2,\"records\":[\x7b\"title\":\"Dune\"\x7d," ++
        "\x7b\"title\":\"Emma\"\x7d]\x7d" ∧
      (state'.batch .book).records = [dune, emma] ∧ state'.ranking.latest = server.state.ranking.latest := by
  intro dune emma
  let app : App := ⟨⟨"http://shelf"⟩, 5⟩
  have rest : Server.Reached app _ _ := .start
  have asked := rest.step (.arrive _ _ (.append .book dune.toJson))
  have waiting := asked.step (.advance [] [] _ _ _ (.change _ _))
  have alone : Alone (State.start.append .book dune) (app.serve (.append .book emma.toJson)) _ _ :=
    .ask (.change _ _) (.done _ _)
  obtain ⟨-, -, added, counted⟩ := (requests_change_their_part waiting).2.2.2 _ _ _ alone
  obtain ⟨longer, lists⟩ := added _ _ _ rfl rfl
  exact ⟨_, _, _, _, waiting, alone, (congrArg Response.body lists).trans (by decide +kernel), longer, counted⟩

end BookCatalog.Web
