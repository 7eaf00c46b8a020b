import BookCatalog.Proofs.Service.Call
import BookCatalog.Proofs.Web.Server
import BookCatalog.Proofs.Web.State

/-!
The stages of the requests that work on the shared state: an append, a flush and a ranking. A stage
says what a request has had so far and what is left to be done for it. Whatever happens in between,
a request is at one of its stages.
-/
namespace BookCatalog.Web

open Service Interaction

variable {app : App} {kind : Kind} {count : Option Nat} {past : List Occurrence} {rest : Handler Response}

/-! ## What is shown -/

/-- A response that lists the waiting records of a kind: a success whose document names the kind, counts the
records and has each of them as an object, in their order. -/
def Response.Lists (response : Response) (kind : Kind) (records : List Record) : Prop :=
  response = ⟨200, (Json.object [("kind", .text kind.name), ("pending", .ofNat records.length),
    ("records", .array (records.map fun record => .object record.attributes))]).compact⟩

/-- A response that shows a ranking: a success whose document says what was asked for, has the entries in their
order, each with its identifier and its score, and their chart, in numbers and as a drawing. -/
def Response.Ranks (response : Response) (kind : Kind) (k : Nat) (entries : List (Ranking.Entry Float)) : Prop :=
  let chart := Chart.Layout.standard.project entries
  response = ⟨200, (Json.object [("kind", .text kind.name), ("k", .ofNat k),
    ("dataset", .array (entries.map fun entry =>
      .object [("identifier", .text entry.identifier), ("score", .ofFloat entry.score)])),
    ("chart", chart.toJson), ("svg", .text (chart.render (Chart.caption kind entries.length)))]).compact⟩

theorem ofJson_topJson_ranks {k : Nat} {entries : List (Ranking.Entry Float)} :
    (Response.ofJson (topJson kind k entries)).Ranks kind k entries := rfl

theorem pending_runs (app : App) (state : State) :
    ∃ response, (app.pending kind).Runs [⟨.change id, state⟩] response ∧
      response.Lists kind (state.batch kind).records :=
  ⟨_, .ask (.done _), rfl⟩

/-! ## Appends -/

theorem append_refused {body : Json} {error : Error} (read : Record.ofJson kind body = .error error) :
    app.append kind body = .done (.ofError error) := by
  simp only [App.append, read]
  rfl

/-- The response of an append, by the state that it found. -/
def appendResponse (kind : Kind) (record : Record) (before : State) : Response :=
  let (answer, left) := (before.batch kind).push record
  respond (pendingJson kind · left.records) answer

/-- An append is one step on the state. -/
theorem append_eq {body : Json} {record : Record} (read : Record.ofJson kind body = .ok record) :
    app.append kind body = .ask (.change (·.append kind record)) fun before =>
      .done (appendResponse kind record before) := by
  simp only [App.append, read, Handler.change_bind]
  rfl

/-- A record of the kind is added, and the response lists it behind those that waited. -/
theorem appendResponse_lists {record : Record} {before : State} (sound : before.Sound) (own : record.kind = kind) :
    (appendResponse kind record before).Lists kind ((before.append kind record).batch kind).records := by
  rw [appendResponse, sound.push_eq own, sound.records_append own, Response.Lists, List.length_append]
  rfl

/-- How far an append has come. -/
inductive AppendStage (kind : Kind) (body : Json) : List Occurrence → Handler Response → Prop where
  | refused {error : Error} (wrong : Record.ofJson kind body = .error error) :
      AppendStage kind body [] (.done (.ofError error))
  | waiting {record : Record} (read : Record.ofJson kind body = .ok record) :
      AppendStage kind body [] (.ask (.change (·.append kind record)) fun before =>
        .done (appendResponse kind record before))
  | added {record : Record} (read : Record.ofJson kind body = .ok record) (before : State) :
      AppendStage kind body [⟨.change (·.append kind record), before⟩]
        (.done (appendResponse kind record before))

theorem append_stage (app : App) {body : Json} (left : (app.append kind body).After past rest) :
    AppendStage kind body past rest := by
  cases read : Record.ofJson kind body with
  | error error =>
    rw [append_refused read] at left
    obtain ⟨rfl, rfl⟩ := after_done.mp left
    exact .refused read
  | ok record =>
    rw [append_eq read] at left
    rcases Handler.after_change.mp left with ⟨rfl, rfl⟩ | ⟨before, later, rfl, added⟩
    · exact .waiting read
    · obtain ⟨rfl, rfl⟩ := after_done.mp added
      exact .added read before

/-! ## Flushes -/

/-- What is left of a flush whose request has an outcome. -/
def settle (kind : Kind) (batch : Batch) (outcome : Outcome) : Handler Response :=
  if (outcome.left batch).records.isEmpty then .done (respond Reply.toJson outcome.reply)
  else
    .ask (.change (·.restore kind (outcome.left batch).records)) fun _ =>
      .done (respond Reply.toJson outcome.reply)

/-- A flush takes the batch, sends its records, and puts them back if there was no answer. -/
theorem flush_eq : ∃ next, app.flush kind = .ask (.change (·.clear kind)) next ∧
    ∀ before : State, before.Sound → next before =
      .ask (.send (app.client.bulkPost kind (before.batch kind).records))
        (settle kind (before.batch kind)) := by
  unfold App.flush
  rw [Handler.change_bind]
  refine ⟨_, rfl, fun before sound => ?_⟩
  simp only [flush_of_same_kind (sound kind), Handler.call_ask, Handler.call_done, ask_bind, done_bind,
    Handler.change_bind]
  rfl

/-- How far a flush has come, and what is left of it. -/
inductive FlushStage (app : App) (kind : Kind) : List Occurrence → Handler Response → Prop where
  | waiting {next : State → Handler Response}
      (then_sends : ∀ before : State, before.Sound → next before =
        .ask (.send (app.client.bulkPost kind (before.batch kind).records))
          (settle kind (before.batch kind))) :
      FlushStage app kind [] (.ask (.change (·.clear kind)) next)
  | sending (before : State) (sound : before.Sound) :
      FlushStage app kind [⟨.change (·.clear kind), before⟩]
        (.ask (.send (app.client.bulkPost kind (before.batch kind).records))
          (settle kind (before.batch kind)))
  | restoring (before : State) (sound : before.Sound) :
      FlushStage app kind
        [⟨.change (·.clear kind), before⟩,
          ⟨.send (app.client.bulkPost kind (before.batch kind).records), .unanswered⟩]
        (.ask (.change (·.restore kind (before.batch kind).records)) fun _ =>
          .done (respond Reply.toJson Outcome.unanswered.reply))
  | settled (before : State) (outcome : Outcome)
      (nothing : (outcome.left (before.batch kind)).records = []) :
      FlushStage app kind
        [⟨.change (·.clear kind), before⟩,
          ⟨.send (app.client.bulkPost kind (before.batch kind).records), outcome⟩]
        (.done (respond Reply.toJson outcome.reply))
  | restored (before now : State) :
      FlushStage app kind
        [⟨.change (·.clear kind), before⟩,
          ⟨.send (app.client.bulkPost kind (before.batch kind).records), .unanswered⟩,
          ⟨.change (·.restore kind (before.batch kind).records), now⟩]
        (.done (respond Reply.toJson Outcome.unanswered.reply))

/-- A flush whose past steps were taken on sound states is at one of its stages. -/
theorem flush_stage (relied : ∀ event ∈ past, Relies State.Sound event)
    (left : (app.flush kind).After past rest) :
    FlushStage app kind past rest := by
  obtain ⟨next, whole, sends⟩ := @flush_eq app kind
  rw [whole] at left
  rcases Handler.after_change.mp left with ⟨rfl, rfl⟩ | ⟨before, later, rfl, taken⟩
  · exact .waiting sends
  have sound : before.Sound := relied ⟨.change _, before⟩ List.mem_cons_self
  rw [sends before sound] at taken
  rcases Handler.after_send.mp taken with ⟨rfl, rfl⟩ | ⟨outcome, later, rfl, sent⟩
  · exact .sending before sound
  unfold settle at sent
  split at sent
  · rename_i nothing
    obtain ⟨rfl, rfl⟩ := after_done.mp sent
    exact .settled before outcome (List.isEmpty_iff.mp nothing)
  · rename_i something
    cases outcome with
    | answered status body => simp [Outcome.left, Batch.empty] at something
    | unanswered =>
      rcases Handler.after_change.mp sent with ⟨rfl, rfl⟩ | ⟨now, later, rfl, restored⟩
      · exact .restoring before sound
      · obtain ⟨rfl, rfl⟩ := after_done.mp restored
        exact .restored before now

/-! ## Rankings -/

/-- What a ranking makes of an outcome. -/
def rankingOf (kind : Kind) (k : Nat) (outcome : Outcome) :
    Except Error (List (Ranking.Entry Float)) :=
  (Client.found kind outcome).map fun records => Ranking.top records scoreAttribute k

theorem rankingOf_error {k : Nat} {outcome : Outcome} {error : Error}
    (wrong : rankingOf kind k outcome = .error error) : Client.found kind outcome = .error error := by
  unfold rankingOf at wrong
  cases read : Client.found kind outcome with
  | error other =>
    rw [read] at wrong
    cases wrong
    rfl
  | ok records =>
    rw [read] at wrong
    cases wrong

/-- The request that a ranking sends. -/
def rankingRequest (client : Client) (kind : Kind) : Request :=
  ⟨.get, client.url searchPath "q" (Query.all kind).compile, none⟩

theorem clientTop_eq {client : Client} {k : Nat} :
    client.top kind k = .ask (rankingRequest client kind) fun outcome => .done (rankingOf kind k outcome) :=
  Client.top_eq

/-- The response of a ranking that has its entries. -/
def verdict (kind : Kind) (k : Nat) (entries : List (Ranking.Entry Float)) (current : Bool) : Response :=
  if current then .ofJson (topJson kind k entries) else .stale

/-- What is left of a ranking whose request has an outcome. -/
def judge (kind : Kind) (k : Nat) (ticket : Ticket) (outcome : Outcome) : Handler Response :=
  match rankingOf kind k outcome with
  | .error error => .done (.ofError error)
  | .ok entries =>
    .ask (.change id) fun now => .done (verdict kind k entries (now.ranking.isCurrent ticket))

theorem appTop_eq :
    app.top kind count = .ask (.change State.issue) fun before =>
      .ask (.send (rankingRequest app.client kind))
        (judge kind (count.getD app.topK) before.ranking.issue.1) := by
  simp only [App.top, Handler.change_bind, Handler.look_bind, clientTop_eq, Handler.call_ask,
    Handler.call_done, ask_bind, done_bind]
  congr 1
  funext before
  congr 1
  funext outcome
  unfold judge verdict
  cases rankingOf kind (count.getD app.topK) outcome with
  | error error => rfl
  | ok entries =>
    dsimp only
    congr 1
    funext now
    split <;> rfl

/-- How far a ranking has come, and what is left of it. -/
inductive TopStage (app : App) (kind : Kind) (k : Nat) : List Occurrence → Handler Response → Prop where
  | waiting :
      TopStage app kind k [] (.ask (.change State.issue) fun before =>
        .ask (.send (rankingRequest app.client kind)) (judge kind k before.ranking.issue.1))
  | calling (before : State) :
      TopStage app kind k [⟨.change State.issue, before⟩]
        (.ask (.send (rankingRequest app.client kind)) (judge kind k before.ranking.issue.1))
  | failed (before : State) {outcome : Outcome} {error : Error}
      (wrong : rankingOf kind k outcome = .error error) :
      TopStage app kind k
        [⟨.change State.issue, before⟩, ⟨.send (rankingRequest app.client kind), outcome⟩]
        (.done (.ofError error))
  | checking (before : State) {outcome : Outcome} {entries : List (Ranking.Entry Float)}
      (right : rankingOf kind k outcome = .ok entries) :
      TopStage app kind k
        [⟨.change State.issue, before⟩, ⟨.send (rankingRequest app.client kind), outcome⟩]
        (.ask (.change id) fun now =>
          .done (verdict kind k entries (now.ranking.isCurrent before.ranking.issue.1)))
  | checked (before : State) {outcome : Outcome} {entries : List (Ranking.Entry Float)}
      (right : rankingOf kind k outcome = .ok entries) (now : State) :
      TopStage app kind k
        [⟨.change State.issue, before⟩, ⟨.send (rankingRequest app.client kind), outcome⟩,
          ⟨.change id, now⟩]
        (.done (verdict kind k entries (now.ranking.isCurrent before.ranking.issue.1)))

theorem top_stage (left : (app.top kind count).After past rest) :
    TopStage app kind (count.getD app.topK) past rest := by
  rw [appTop_eq] at left
  rcases Handler.after_change.mp left with ⟨rfl, rfl⟩ | ⟨before, later, rfl, issued⟩
  · exact .waiting
  rcases Handler.after_send.mp issued with ⟨rfl, rfl⟩ | ⟨outcome, later, rfl, answered⟩
  · exact .calling before
  unfold judge at answered
  split at answered
  · rename_i error wrong
    obtain ⟨rfl, rfl⟩ := after_done.mp answered
    exact .failed before wrong
  · rename_i entries right
    rcases Handler.after_change.mp answered with ⟨rfl, rfl⟩ | ⟨now, later, rfl, looked⟩
    · exact .checking before right
    · obtain ⟨rfl, rfl⟩ := after_done.mp looked
      exact .checked before right now

theorem rankingOf_of_runs {client : Client} {k : Nat} {request : Request} {outcome : Outcome}
    {entries : List (Ranking.Entry Float)}
    (succeeded : (client.top kind k).Runs [⟨request, outcome⟩] (.ok entries)) :
    rankingOf kind k outcome = .ok entries := by
  rw [clientTop_eq, runs_ask] at succeeded
  obtain ⟨answer, later, same, run⟩ := succeeded
  cases same
  exact (runs_done.mp run).2.symm

end BookCatalog.Web
