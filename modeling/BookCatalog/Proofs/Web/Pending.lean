import BookCatalog.Proofs.Record.Reading
import BookCatalog.Proofs.Web.Stage

/-!
No waiting record is lost, doubled or sent again. A record that was appended is listed, or held by a
flush under way, or delivered by a request that got an answer; a step of a request moves records
from one of these places to another and nothing else does. Flushes may overlap with each other and
with anything else.
-/
namespace BookCatalog.Web

open Service Interaction

/-- The kind whose batch a request works on, if it works on one. -/
def Call.batch? : Call → Option Kind
  | .append kind _ => some kind
  | .flush kind => some kind
  | _ => none

/-- An effect that leaves waiting records where they are: a step that changes no batch, or a request
that does not create records together. -/
def Effect.SparesBatches (client : Client) : Effect → Prop
  | .send request => ∀ kind, client.bulkRecords kind request = []
  | .change step => ∀ state kind, (step state).batch kind = state.batch kind

variable {app : App} {kind : Kind} {history : List Moment} {server : Server}

theorem search_spares_batches {query : String} :
    (app.client.search query).Keeps (fun _ => True)
      fun request => Effect.SparesBatches app.client (.send request) := by
  unfold Client.search
  split
  · exact trivial
  · exact ⟨fun kind => bulkRecords_none, fun _ _ => trivial⟩

/-- Requests that work on no batch leave waiting records where they are. -/
theorem serve_spares_batches {call : Call} (other : call.batch? = none) :
    (app.serve call).Keeps (fun _ => True) (Effect.SparesBatches app.client) := by
  cases call with
  | append | flush => simp [Call.batch?] at other
  | get | delete | scrape =>
    refine .bind (Handler.call_keeps ?_) fun _ => trivial
    exact ⟨fun kind => bulkRecords_none, fun _ _ => trivial⟩
  | update kind id body =>
    simp only [App.serve, App.update]
    split
    · exact trivial
    · refine .bind (Handler.call_keeps ?_) fun _ => trivial
      exact ⟨fun kind => bulkRecords_object, fun _ _ => trivial⟩
  | create kind body =>
    simp only [App.serve, App.create]
    split
    · exact trivial
    · refine .bind (Handler.call_keeps ?_) fun _ => trivial
      unfold Client.create
      split
      · exact trivial
      · exact ⟨fun kind => bulkRecords_object, fun _ _ => trivial⟩
  | search parameters =>
    simp only [App.serve, App.search]
    split
    · exact trivial
    · refine .bind (Handler.call_keeps search_spares_batches) fun result => ?_
      cases result <;> exact trivial
  | top kind count =>
    simp only [App.serve, App.top, Handler.change_bind, Handler.look_bind]
    refine ⟨fun state kind => State.batch_issue, fun before _ => ?_⟩
    have sends : (app.client.top kind (count.getD app.topK)).Keeps (fun _ => True)
        fun request => Effect.SparesBatches app.client (.send request) :=
      .bind search_spares_batches fun _ => trivial
    refine .bind (Handler.call_keeps sends) fun result => ?_
    cases result with
    | error error => exact trivial
    | ok entries =>
      refine ⟨fun state kind => rfl, fun now _ => ?_⟩
      dsimp only
      split <;> exact trivial
  | pending kind => exact ⟨fun state kind => rfl, fun _ _ => trivial⟩

theorem Effect.SparesBatches.preserves {client : Client} {op : Effect} (spares : op.SparesBatches client) :
    Preserves State.Sound op := by
  cases op with
  | send request => exact trivial
  | change step =>
    intro state sound kind
    rw [spares state kind]
    exact sound kind

/-- No request puts a record into a batch of the other kind. -/
theorem serve_sound (call : Call) :
    (app.serve call).Keeps (Relies State.Sound) (Preserves State.Sound) := by
  cases call with
  | append kind body =>
    cases read : Record.ofJson kind body with
    | error error =>
      rw [App.serve, append_refused read]
      exact trivial
    | ok record =>
      rw [App.serve, append_eq read]
      exact ⟨fun state sound => sound.append, fun _ _ => trivial⟩
  | flush kind =>
    obtain ⟨next, whole, sends⟩ := @flush_eq app kind
    rw [App.serve, whole]
    refine ⟨fun state sound => sound.clear, fun before sound => ?_⟩
    rw [sends before sound]
    refine ⟨trivial, fun outcome _ => ?_⟩
    unfold settle
    split
    · exact trivial
    · exact ⟨fun state kept => kept.restore (left_ofKind (sound kind) outcome).2, fun _ _ => trivial⟩
  | get | delete | update | create | search | top | pending | scrape =>
    exact (serve_spares_batches rfl).mono (fun _ _ => trivial) fun _ => Effect.SparesBatches.preserves

theorem job_sound (reached : server.Reached app history) :
    server.state.Sound ∧ ∀ job ∈ server.jobs, ∀ event ∈ job.past, Relies State.Sound event :=
  reached_invariant State.start_sound serve_sound reached

/-- Both hold for the request that a step is about to move. -/
theorem asking_sound {state : State} {before behind : List Job} {call : Call} {past : List Occurrence}
    {op : Effect} {next : op.Answer → Handler Response}
    (reached : Server.Reached app history ⟨state, before ++ ⟨call, past, .ask op next⟩ :: behind⟩) :
    state.Sound ∧ ∀ event ∈ past, Relies State.Sound event := by
  obtain ⟨sound, relied⟩ := job_sound reached
  exact ⟨sound, relied _ (List.mem_append_right before List.mem_cons_self)⟩

/-! ## Where records are -/

namespace Job

/-- The record of a kind that a request has appended: its own, if it was told so. -/
def appended (kind : Kind) (job : Job) : List Record :=
  match job.call, job.rest with
  | .append own body, .done response =>
    if own = kind ∧ response.status = 200 then (Record.ofJson kind body).toOption.toList else []
  | _, _ => []

/-- The records of a kind that a request under way holds: those that it found when it emptied the
batch. -/
def held (kind : Kind) (job : Job) : List Record :=
  match job.call, job.past, job.rest with
  | .flush own, ⟨.change _, before⟩ :: _, .ask _ _ =>
    if own = kind then (State.batch before kind).records else []
  | _, _, _ => []

/-- The records of a kind that a request has brought to the service, read off what it sent and what
was answered. -/
def delivered (app : App) (kind : Kind) (job : Job) : List Record :=
  job.past.flatMap fun
    | ⟨.send request, outcome⟩ => app.client.delivered kind request outcome
    | ⟨.change _, _⟩ => []

end Job

variable {state state' : State} {call : Call} {past : List Occurrence} {op : Effect} {answer : op.Answer}
  {next : op.Answer → Handler Response}

theorem held_ask {own : Kind} {step : State → State} {before : State} {later : List Occurrence}
    {op : Effect} {next : op.Answer → Handler Response} :
    Job.held kind ⟨.flush own, ⟨.change step, before⟩ :: later, .ask op next⟩ =
      if own = kind then (before.batch kind).records else [] := rfl

/-- A flush whose request has an outcome goes on holding what the outcome leaves. -/
theorem held_settle {own : Kind} {step : State → State} {before : State} {later : List Occurrence}
    (outcome : Outcome) :
    Job.held kind ⟨.flush own, ⟨.change step, before⟩ :: later, settle own (before.batch own) outcome⟩ =
      if own = kind then (outcome.left (before.batch kind)).records else [] := by
  unfold settle
  split
  · rename_i nothing
    rw [List.isEmpty_iff] at nothing
    split
    · rename_i same
      rw [← same, nothing]
      rfl
    · rfl
  · rename_i something
    cases outcome with
    | answered status body => simp [Outcome.left, Batch.empty] at something
    | unanswered => rfl

/-- A step moves records and nothing else: what it appends and what waits, is held or is delivered
before it waits, is held or is delivered behind it. -/
def Moves (app : App) (kind : Kind) (state state' : State) (job job' : Job) : Prop :=
  (job'.appended kind ++
      ((state.batch kind).records ++ job.held kind ++ job.delivered app kind)).Perm
    ((state'.batch kind).records ++ job'.held kind ++ job'.delivered app kind)

theorem append_moves {own : Kind} {body : Json} (sound : state.Sound)
    (left : (app.append own body).After past (.ask op next))
    (taken : Effect.Takes state ⟨op, answer⟩ state') :
    Moves app kind state state' ⟨.append own body, past, .ask op next⟩
      ⟨.append own body, past ++ [⟨op, answer⟩], next answer⟩ := by
  unfold Moves
  cases append_stage app left with
  | @waiting record read =>
    obtain ⟨rfl, rfl⟩ := takes_change.mp taken
    by_cases mine : kind = own
    · subst mine
      have grown := sound.push_eq (Record.kind_of_ofJson read)
      simpa [Job.appended, Job.held, Job.delivered, State.batch_append, appendResponse, grown, respond,
        Response.ofJson, read, Except.toOption] using (List.perm_append_singleton _ _).symm
    · simp [Job.appended, Job.held, Job.delivered, State.batch_append, mine, Ne.symm mine]

theorem flush_moves {own : Kind} (sound : state.Sound) (relied : ∀ event ∈ past, Relies State.Sound event)
    (left : (app.flush own).After past (.ask op next)) (taken : Effect.Takes state ⟨op, answer⟩ state') :
    Moves app kind state state' ⟨.flush own, past, .ask op next⟩
      ⟨.flush own, past ++ [⟨op, answer⟩], next answer⟩ := by
  unfold Moves
  cases flush_stage relied left with
  | waiting sends =>
    obtain ⟨rfl, rfl⟩ := takes_change.mp taken
    rw [sends answer sound]
    by_cases mine : kind = own
    · subst mine
      simp [Job.appended, Job.held, Job.delivered, State.batch_clear, Batch.empty]
    · simp [Job.appended, Job.held, Job.delivered, State.batch_clear, mine, Ne.symm mine]
  | sending before sound' =>
    obtain rfl := takes_send.mp taken
    rw [List.singleton_append, held_settle, held_ask]
    by_cases mine : kind = own
    · subst mine
      have shared := @delivered_append_left app.client kind _ (sound' kind) answer
      simp only [Job.appended, Job.delivered, List.flatMap_cons, List.flatMap_nil, List.append_nil,
        List.nil_append, if_true, List.append_assoc]
      exact ((List.Perm.of_eq shared.symm).trans List.perm_append_comm).append_left _
    · have elsewhere := @bulkRecords_of_ne app.client own kind (before.batch own).records mine
      cases answer <;> simp [Job.appended, Job.delivered, Client.delivered, elsewhere, Ne.symm mine]
  | restoring before sound' =>
    obtain ⟨rfl, rfl⟩ := takes_change.mp taken
    by_cases mine : kind = own
    · subst mine
      simpa [Job.appended, Job.held, Job.delivered, State.batch_restore, Batch.restore, Client.delivered]
        using List.perm_append_comm
    · simp [Job.appended, Job.held, Job.delivered, State.batch_restore, Client.delivered, mine,
        Ne.symm mine]

/-- **A step of any request moves records and nothing else.** -/
theorem step_moves (sound : state.Sound) (relied : ∀ event ∈ past, Relies State.Sound event)
    (left : (app.serve call).After past (.ask op next)) (taken : Effect.Takes state ⟨op, answer⟩ state') :
    Moves app kind state state' ⟨call, past, .ask op next⟩
      ⟨call, past ++ [⟨op, answer⟩], next answer⟩ := by
  cases call with
  | append own body => exact append_moves sound left taken
  | flush own => exact flush_moves sound relied left taken
  | get | delete | update | create | search | top | pending | scrape =>
    have spares := ((serve_spares_batches rfl).after left fun _ _ => trivial).1
    unfold Moves
    cases taken with
    | change => simp [Job.appended, Job.held, Job.delivered, spares state kind]
    | send request outcome =>
      cases outcome <;> simp [Job.appended, Job.held, Job.delivered, Client.delivered, spares kind]

/-- A request as it arrives has had no part in any record. -/
theorem fresh_has_nothing :
    Job.appended kind ⟨call, [], app.serve call⟩ = [] ∧
      Job.held kind ⟨call, [], app.serve call⟩ = [] ∧
      Job.delivered app kind ⟨call, [], app.serve call⟩ = [] := by
  refine ⟨?_, ?_, rfl⟩
  · cases call with
    | append own body =>
      cases read : Record.ofJson own body with
      | error error =>
        rw [App.serve, append_refused read]
        by_cases mine : own = kind
        · subst mine
          simp [Job.appended, read, Except.toOption]
        · simp [Job.appended, mine]
      | ok record =>
        rw [App.serve, append_eq read]
        rfl
    | _ => rfl
  · cases call <;> rfl

/-- At every moment the appended records are those that wait, those held and those delivered. -/
theorem records_balance (reached : server.Reached app history) :
    (server.jobs.flatMap (Job.appended kind)).Perm
      ((server.state.batch kind).records ++ server.jobs.flatMap (Job.held kind) ++
        server.jobs.flatMap (Job.delivered app kind)) := by
  induction reached with
  | start => cases kind <;> exact .nil
  | step reached step ih =>
    cases step with
    | arrive state jobs call =>
      obtain ⟨not_appended, not_held, not_delivered⟩ := @fresh_has_nothing app kind call
      simpa [not_appended, not_held, not_delivered] using ih
    | @advance state state' before behind call past op answer next taken =>
      obtain ⟨sound, relied⟩ := asking_sound reached
      have moved : Moves app kind state state' ⟨call, past, .ask op next⟩
          ⟨call, past ++ [⟨op, answer⟩], next answer⟩ :=
        step_moves sound relied (asking_after reached) taken
      have unfinished : Job.appended kind ⟨call, past, .ask op next⟩ = [] := by
        cases call <;> rfl
      -- The other requests have what they had, so each record is counted as before but for `moved`.
      classical
      refine List.perm_iff_count.mpr fun record => ?_
      have before_eq := ih.count_eq record
      have moved_eq := List.Perm.count_eq moved record
      simp only [List.flatMap_append, List.flatMap_cons, List.count_append, unfinished,
        List.count_nil] at before_eq moved_eq ⊢
      omega

/-- A request to the service that a request of the front end is about to send carries the records
that this one holds. -/
theorem request_carries_held (reached : server.Reached app history) {job : Job} (member : job ∈ server.jobs)
    {request : Request} {next : Outcome → Handler Response} (asks : job.rest = .ask (.send request) next) :
    app.client.bulkRecords kind request = job.held kind := by
  have relied := (job_sound reached).2 job member
  have left := job_after reached job member
  obtain ⟨call, past, rest⟩ := job
  subst asks
  cases call with
  | append own body =>
    have stage : AppendStage own body past (.ask (.send request) next) := append_stage app left
    cases stage
  | flush own =>
    cases flush_stage relied left with
    | sending before sound =>
      rw [held_ask]
      split
      · rename_i mine
        subst mine
        exact bulkRecords_bulkPost (sound own).2
      · rename_i other
        exact bulkRecords_of_ne (Ne.symm other)
  | get | delete | update | create | search | top | pending | scrape =>
    exact ((serve_spares_batches rfl).after left fun _ _ => trivial).1 kind

/-- No flush fails because of the kind of a record. -/
theorem flush_never_mismatches (reached : server.Reached app history) {job : Job}
    (member : job ∈ server.jobs) (flushes : job.call = .flush kind) (expected found : Kind) :
    job.rest ≠ .done (.ofError (.kindMismatch expected found)) := by
  have relied := (job_sound reached).2 job member
  have left := job_after reached job member
  obtain ⟨call, past, rest⟩ := job
  rintro rfl
  subst flushes
  generalize ended : (Response.ofError (.kindMismatch expected found)) = response at left
  cases flush_stage relied left with
  | settled before outcome => cases outcome <;> cases congrArg Response.status ended
  | restored before now => cases congrArg Response.status ended

/-- **No waiting record is lost, doubled or sent again.** At every moment, however requests overlap
and whatever the service answers, the records that were appended are exactly those listed as
waiting, those held by flushes under way and those delivered by requests that got an answer, each as
often as it was appended. What a flush sends is what it holds, and no flush fails because of the kind
of a record. -/
theorem appended_records_accounted (reached : server.Reached app history) (kind : Kind) :
    (server.jobs.flatMap (Job.appended kind)).Perm
        ((server.state.batch kind).records ++ server.jobs.flatMap (Job.held kind) ++
          server.jobs.flatMap (Job.delivered app kind)) ∧
      (∃ response, (app.pending kind).Runs [⟨.change id, server.state⟩] response ∧
        response.Lists kind (server.state.batch kind).records) ∧
      (∀ job ∈ server.jobs, ∀ request next, job.rest = .ask (.send request) next →
        app.client.bulkRecords kind request = job.held kind) ∧
      ∀ job ∈ server.jobs, job.call = .flush kind → ∀ expected found,
        job.rest ≠ .done (.ofError (.kindMismatch expected found)) := by
  refine ⟨records_balance reached, pending_runs app server.state, ?_, ?_⟩
  · intro job member request next asks
    exact request_carries_held reached member asks
  · intro job member flushes
    exact flush_never_mismatches reached member flushes

/-- Two flushes overlap. The one that gets no answer puts its record back behind the answer to the
other, so one record waits and is listed, and one is delivered. -/
theorem appended_records_accounted_overlapping :
    ∃ history server response, Server.Reached ⟨⟨"http://shelf"⟩, 5⟩ history server ∧
      (App.pending ⟨⟨"http://shelf"⟩, 5⟩ .book).Runs [⟨.change id, server.state⟩] response ∧
      response.body = "\x7b\"kind\":\"book\",\"pending\":1,\"records\":[\x7b\"title\":\"Dune\"\x7d]\x7d" ∧
      server.jobs.flatMap (Job.delivered ⟨⟨"http://shelf"⟩, 5⟩ .book) =
        [⟨.book, [("title", .text "Emma")]⟩] ∧
      (server.jobs.flatMap (Job.appended .book)).Perm
        [⟨.book, [("title", .text "Dune")]⟩, ⟨.book, [("title", .text "Emma")]⟩] := by
  let app : App := ⟨⟨"http://shelf"⟩, 5⟩
  have rest : Server.Reached app _ _ := .start
  have asked := rest.step (.arrive _ _ (.append .book (.object [("title", .text "Dune")])))
  have one := asked.step (.advance [] [] _ _ _ (.change _ _))
  have flushing := one.step (.arrive _ _ (.flush .book))
  have taken := flushing.step (.advance [_] [] _ _ _ (.change _ _))
  have asked' := taken.step (.arrive _ _ (.append .book (.object [("title", .text "Emma")])))
  have two := asked'.step (.advance [_, _] [] _ _ _ (.change _ _))
  have flushing' := two.step (.arrive _ _ (.flush .book))
  have taken' := flushing'.step (.advance [_, _, _] [] _ _ _ (.change _ _))
  have failed := taken'.step (.advance [_] [_, _] _ _ _ (.send _ _ .unanswered))
  have answered := failed.step (.advance [_, _, _] [] _ _ _ (.send _ _ (.answered 201 .empty)))
  have restored := answered.step (.advance [_] [_, _] _ _ _ (.change _ _))
  obtain ⟨balance, ⟨response, shown, lists⟩, -⟩ := appended_records_accounted restored .book
  exact ⟨_, _, response, restored, shown, (congrArg Response.body lists).trans (by decide +kernel), rfl, balance⟩

end BookCatalog.Web
