import BookCatalog.Service.Client
import BookCatalog.Proofs.Interaction
import BookCatalog.Proofs.Record.Batch

/-!
Bulk creation through one batch. A record that was appended waits in the batch until a bulk request
that carries it is answered, whatever the answer says, and no later request carries it again. What a
request carries is read off its body and its destination, not off the batch it came from.
-/
namespace BookCatalog.Service

/-- The request that creates records together. -/
def Client.bulkPost (client : Client) (kind : Kind) (records : List Record) : Request :=
  ⟨.post, client.base ++ collectionPath kind, some (.array (records.map Record.toJson))⟩

/-- The records of a kind that a request has the service create together: the objects of its body,
if it goes where that is done. -/
def Client.bulkRecords (client : Client) (kind : Kind) (request : Request) : List Record :=
  if request.method = .post ∧ request.url = client.base ++ collectionPath kind then
    match request.body with
    | some (.array items) =>
      items.filterMap fun
        | .object fields => some ⟨kind, fields⟩
        | _ => none
    | _ => []
  else []

/-- The records of a kind that a request has brought to the service, by what came of it. -/
def Client.delivered (client : Client) (kind : Kind) (request : Request) : Outcome → List Record
  | .unanswered => []
  | .answered _ _ => client.bulkRecords kind request

/-- What a flush leaves in a batch. -/
def Outcome.left (batch : Batch) : Outcome → Batch
  | .unanswered => batch
  | .answered _ _ => .empty batch.kind

theorem left_ofKind {batch : Batch} {kind : Kind} (held : batch.OfKind kind) (outcome : Outcome) :
    (outcome.left batch).OfKind kind := by
  cases outcome with
  | unanswered => exact held
  | answered status body =>
    obtain ⟨rfl, -⟩ := held
    exact Batch.empty_ofKind _

variable {client : Client} {kind : Kind} {batch left : Batch}

@[simp] theorem bulkRecords_none {method : Method} {url : String} :
    client.bulkRecords kind ⟨method, url, none⟩ = [] := by
  simp [Client.bulkRecords]

@[simp] theorem bulkRecords_object {method : Method} {url : String} {fields : Json.Fields} :
    client.bulkRecords kind ⟨method, url, some (.object fields)⟩ = [] := by
  simp [Client.bulkRecords]

/-- A bulk request carries the very records that it was made from. -/
theorem bulkRecords_bulkPost {records : List Record} (same : ∀ record ∈ records, record.kind = kind) :
    client.bulkRecords kind (client.bulkPost kind records) = records := by
  simp only [Client.bulkRecords, Client.bulkPost, and_self, ↓reduceIte, List.filterMap_map]
  induction records with
  | nil => rfl
  | cons record records ih =>
    have own : (⟨kind, record.attributes⟩ : Record) = record := by
      rw [← same record (by simp)]
    have others := ih fun other member => same other (List.mem_cons_of_mem _ member)
    simpa [Function.comp_def, Record.toJson, own] using others

/-- A bulk request of one kind carries nothing of the other. -/
theorem bulkRecords_of_ne {other : Kind} {records : List Record} (differ : other ≠ kind) :
    client.bulkRecords other (client.bulkPost kind records) = [] := by
  have elsewhere : client.base ++ collectionPath kind ≠ client.base ++ collectionPath other := by
    rw [ne_eq, String.append_right_inj]
    revert differ
    cases kind <;> cases other <;> decide
  simp [Client.bulkRecords, Client.bulkPost, elsewhere]

theorem createMany_of_same_kind {records : List Record}
    (same : ∀ record ∈ records, record.kind = kind) :
    client.createMany kind records =
      .ask (client.bulkPost kind records) fun outcome => .done outcome.reply := by
  have absent : records.find? (·.kind != kind) = none := by simpa using same
  simp only [Client.createMany, absent]
  rfl

/-- A flush sends the whole batch in one request, and its outcome alone decides what is left. -/
theorem flush_of_same_kind (held : batch.OfKind kind) :
    client.flush batch =
      .ask (client.bulkPost kind batch.records) fun outcome =>
        .done (outcome.reply, outcome.left batch) := by
  obtain ⟨rfl, same⟩ := held
  simp only [Client.flush, Batch.take, createMany_of_same_kind same, Interaction.ask_bind]
  congr 1
  funext outcome
  cases outcome <;> simp [Outcome.reply, Outcome.left, Batch.restore, Batch.empty] <;> rfl

/-- The ways in which a flush can go. -/
theorem flush_runs_iff (held : batch.OfKind kind)
    {events : List (Interaction.Event Request fun _ => Outcome)} {result : Except Error Reply} :
    (client.flush batch).Runs events (result, left) ↔
      ∃ outcome : Outcome, events = [⟨client.bulkPost kind batch.records, outcome⟩] ∧
        result = outcome.reply ∧ left = outcome.left batch := by
  rw [flush_of_same_kind held]
  simp only [Interaction.runs_ask, Interaction.runs_done, Prod.mk.injEq]
  constructor
  · rintro ⟨outcome, later, rfl, rfl, rfl, rfl⟩
    exact ⟨outcome, rfl, rfl, rfl⟩
  · rintro ⟨outcome, rfl, rfl, rfl⟩
    exact ⟨outcome, [], rfl, rfl, rfl, rfl⟩

/-! ## Sessions -/

/-- What a session does with its batch, and what comes of it. -/
inductive Act where
  | append (record : Record) (answer : Except Error Nat)
  | flush (events : List (Interaction.Event Request fun _ => Outcome)) (result : Except Error Reply)

/-- The records that the acts of a session have appended. -/
def appended (acts : List Act) : List Record :=
  acts.flatMap fun
    | .append record (.ok _) => [record]
    | _ => []

/-- The records that the acts of a session have brought to the service. -/
def delivered (client : Client) (kind : Kind) (acts : List Act) : List Record :=
  acts.flatMap fun
    | .flush events _ => events.flatMap fun ⟨request, outcome⟩ => client.delivered kind request outcome
    | _ => []

/-- A session appends to its batch and flushes it, one act after the other and in any order. The
service does as it likes. -/
inductive Session (client : Client) (kind : Kind) : List Act → Batch → Prop where
  | start : Session client kind [] (.empty kind)
  | append {acts : List Act} {batch : Batch} (session : Session client kind acts batch)
      (record : Record) :
      Session client kind (acts ++ [.append record (batch.push record).1]) (batch.push record).2
  | flush {acts : List Act} {batch left : Batch} (session : Session client kind acts batch)
      {events : List (Interaction.Event Request fun _ => Outcome)} {result : Except Error Reply}
      (run : (client.flush batch).Runs events (result, left)) :
      Session client kind (acts ++ [.flush events result]) left

variable {acts : List Act}

theorem session_batch_ofKind (session : Session client kind acts batch) : batch.OfKind kind := by
  induction session with
  | start => exact Batch.empty_ofKind kind
  | append session record held => exact Batch.push_ofKind held
  | flush session run held =>
    obtain ⟨outcome, -, -, rfl⟩ := (flush_runs_iff held).mp run
    exact left_ofKind held outcome

/-- What a flush delivers and what it leaves are together what the batch held. -/
theorem delivered_append_left (held : batch.OfKind kind) (outcome : Outcome) :
    client.delivered kind (client.bulkPost kind batch.records) outcome ++
      (outcome.left batch).records = batch.records := by
  cases outcome with
  | unanswered => rfl
  | answered status body =>
    simp [Client.delivered, Outcome.left, Batch.empty, bulkRecords_bulkPost held.2]

theorem session_records (session : Session client kind acts batch) :
    delivered client kind acts ++ batch.records = appended acts := by
  induction session with
  | start => rfl
  | @append acts batch session record ih =>
    simp only [delivered, appended, List.flatMap_append, List.flatMap_cons, List.flatMap_nil,
      List.append_nil] at ih ⊢
    by_cases own : record.kind = batch.kind
    · simp only [Batch.push_own own]
      rw [← ih, List.append_assoc]
    · simpa only [Batch.push_other own, List.append_nil] using ih
  | @flush acts batch left session events result run ih =>
    have held := session_batch_ofKind session
    obtain ⟨outcome, rfl, -, rfl⟩ := (flush_runs_iff held).mp run
    simp only [delivered, appended, List.flatMap_append, List.flatMap_cons, List.flatMap_nil,
      List.append_nil] at ih ⊢
    rw [List.append_assoc, delivered_append_left held, ih]

/-- A flush is a success exactly if it was answered. A success empties the batch, and a failure
leaves it as it was. -/
theorem flush_result (held : batch.OfKind kind)
    {events : List (Interaction.Event Request fun _ => Outcome)} {result : Except Error Reply}
    (run : (client.flush batch).Runs events (result, left)) :
    ((∃ reply, result = .ok reply) ↔
        ∃ request status body, ⟨request, .answered status body⟩ ∈ events) ∧
      (∀ reply, result = .ok reply → left = .empty kind) ∧
      ∀ error, result = .error error → left = batch := by
  obtain ⟨outcome, rfl, rfl, rfl⟩ := (flush_runs_iff held).mp run
  obtain ⟨rfl, -⟩ := held
  cases outcome with
  | unanswered => simp [Outcome.reply, Outcome.left]
  | answered status body =>
    refine ⟨⟨fun _ => ⟨_, _, _, List.mem_singleton.mpr rfl⟩, fun _ => ⟨_, rfl⟩⟩, ?_, ?_⟩
    · exact fun _ _ => rfl
    · exact fun _ failed => by cases failed

/-- **Each record is delivered once and in order.** After every act of a session, the records of its
answered bulk requests and those still in the batch are together the appended ones, in the order of
appending. A flush comes to an end whatever the outcome of its request; it succeeds exactly if it
was answered, and then empties the batch, which a failure leaves as it was. A record of the other
kind is refused and changes nothing. -/
theorem session_delivers_once_in_order (session : Session client kind acts batch) :
    delivered client kind acts ++ batch.records = appended acts ∧
      (∀ outcome, ∃ request result left, (client.flush batch).Runs [⟨request, outcome⟩] (result, left)) ∧
      (∀ events result left, (client.flush batch).Runs events (result, left) →
        ((∃ reply, result = .ok reply) ↔
          ∃ request status body, ⟨request, .answered status body⟩ ∈ events) ∧
        (∀ reply, result = .ok reply → left = .empty kind) ∧
        ∀ error, result = .error error → left = batch) ∧
      ∀ record, record.kind ≠ kind →
        batch.push record = (.error (.kindMismatch kind record.kind), batch) := by
  have held := session_batch_ofKind session
  refine ⟨session_records session, fun outcome => ?_, fun _ _ _ => flush_result held, ?_⟩
  · exact ⟨_, _, _, (flush_runs_iff held).mpr ⟨outcome, rfl, rfl, rfl⟩⟩
  · intro record other
    rw [← held.1] at other ⊢
    exact Batch.push_other other

/-- A record that gets no answer goes out again with the next one, and both are delivered by an
answer that is no success and no document. -/
theorem session_delivers_after_retry :
    ∃ acts, Session ⟨"http://shelf"⟩ .book acts (.empty .book) ∧
      appended acts = [⟨.book, [("book_id", .text "1")]⟩, ⟨.book, [("book_id", .text "2")]⟩] ∧
      delivered ⟨"http://shelf"⟩ .book acts = appended acts := by
  let first : Record := ⟨.book, [("book_id", .text "1")]⟩
  let second : Record := ⟨.book, [("book_id", .text "2")]⟩
  have opened : Session ⟨"http://shelf"⟩ .book [] (.empty .book) := .start
  have one := opened.append first
  have failed := one.flush ((flush_runs_iff (session_batch_ofKind one)).mpr ⟨.unanswered, rfl, rfl, rfl⟩)
  have two := failed.append second
  have sent := two.flush ((flush_runs_iff (session_batch_ofKind two)).mpr
    ⟨.answered 500 "down".toUTF8, rfl, rfl, rfl⟩)
  have accounted := (session_delivers_once_in_order sent).1
  exact ⟨_, sent, rfl, by simpa [Outcome.left, Batch.empty] using accounted⟩

end BookCatalog.Service
