import BookCatalog.Proofs.Query.Search
import BookCatalog.Proofs.Web.Failure
import BookCatalog.Proofs.Web.Stage

/-!
What the front end makes of a read. The three requests that read make one call each, all by one rule, and
choose the status of an error in one way. A response is held against the outcome that is behind it: a
success stands for data that the service has sent, or for its word that there are none, and each way to
fail has a status that tells it from a success.
-/
namespace BookCatalog.Web

open Service Interaction

variable {α : Type}

/-- An outcome brings data: its status says what there is, or it is a success with a document that can be
validated. -/
def Brings (absent : Nat → Option α) (validate : Json → Except Error α) (outcome : Outcome) (data : α) :
    Prop :=
  ∃ status body, outcome = .answered status body ∧
    (absent status = some data ∨
      (200 ≤ status ∧ status < 300) ∧ ∃ document, Json.readBytes? body = some document ∧
        validate document = .ok data)

/-- The rule of a response to a read. A success stands for data, and what brings no data is an error. The
status of an error is that of the service if it rejected the call; a gateway is bad if there was no
answer or none that is a document, if the service says the same of itself, and if what it says is no
status; and a document that is not valid is a mistake of the request. -/
structure Reports (absent : Nat → Option α) (validate : Json → Except Error α) (valid : Json → Prop)
    (shows : α → Response → Prop) (outcome : Outcome) (response : Response) : Prop where
  success : isSuccess response.status = true → ∃ data, Brings absent validate outcome data
  failure : (∀ data, ¬ Brings absent validate outcome data) → ∃ error, response = .ofError error
  data : ∀ data, Brings absent validate outcome data → shows data response
  rejected : ∀ status body, outcome = .answered status body → ¬ (200 ≤ status ∧ status < 300) →
    absent status = none → 100 ≤ status → status ≤ 999 → response.status = status
  badGateway_iff : response.status = badGateway ↔ IsBadGateway outcome
  invalid : ∀ status body document, outcome = .answered status body → 200 ≤ status → status < 300 →
    Json.readBytes? body = some document → ¬ valid document → response.status = badRequest

/-- The outcomes that the service had for a request. -/
def outcomesOf (events : List Occurrence) : List Outcome :=
  events.filterMap fun
    | ⟨.send _, outcome⟩ => some outcome
    | _ => none

/-- A handler calls the service once, and its response follows a rule whatever the outcome. -/
structure Answers (handler : Handler Response) (rule : Outcome → Response → Prop) : Prop where
  total : ∀ outcome, ∃ events response, handler.Runs events response ∧ outcomesOf events = [outcome]
  ruled : ∀ events response, handler.Runs events response →
    ∃ outcome, outcomesOf events = [outcome] ∧ rule outcome response

/-- A search that can be carried out: its field is one of the kind, and if an operator is named, it is one,
and a second field is there and is one of the kind as well. -/
structure SearchParameters.IsValid (parameters : SearchParameters) : Prop where
  field : parameters.field ∈ parameters.kind.attributes
  operator : Text.isBlankText (parameters.operator.getD "") = false →
    ∃ operator, Operator.read (parameters.operator.getD "") = .ok operator
  field2 : Text.isBlankText (parameters.operator.getD "") = false →
    parameters.field2.getD "" ∈ parameters.kind.attributes

variable {absent : Nat → Option α} {validate : Json → Except Error α} {valid : Json → Prop}
  {shows : α → Response → Prop} {outcome : Outcome} {result : Except Error α} {response : Response}

/-! ## Responses to a call that reads -/

theorem brings_of_ends {data : α} (ends : Ends absent validate outcome result) :
    result = .ok data ↔ Brings absent validate outcome data := by
  constructor
  · intro done
    cases ends with
    | absent refused known =>
      cases done
      exact ⟨_, _, rfl, .inl known⟩
    | validated success unknown found => exact ⟨_, _, rfl, .inr ⟨success, _, found, done⟩⟩
    | unanswered | refused | garbled => cases done
  · rintro ⟨status, body, rfl, known | ⟨success, document, found, done⟩⟩
    · cases ends with
      | absent _ known' => rw [Option.some.inj (known'.symm.trans known)]
      | refused _ unknown | garbled _ unknown | validated _ unknown =>
        rw [unknown] at known
        cases known
    · cases ends with
      | absent refused => exact absurd success refused
      | refused refused => exact absurd success refused
      | garbled _ _ garbled =>
        rw [garbled] at found
        cases found
      | validated _ _ found' =>
        obtain rfl := Option.some.inj (found'.symm.trans found)
        exact done

/-- What a handler makes of the result of a call: the response to an error, or one that shows the data. -/
def Renders (shows : α → Response → Prop) : Except Error α → Response → Prop
  | .error error, response => response = .ofError error
  | .ok data, response => shows data response

/-- A response that renders the result of a call reports on the outcome of its request, if data are shown
with a status of their own, and a status that stands for data is none of a gateway. -/
theorem reports_of_ends (validates : Validates validate valid)
    (mistakes : ∀ status data, absent status = some data → 400 ≤ status ∧ status < 500)
    (shown : ∀ data response, shows data response → response.status = 200 ∨ response.status = conflict)
    (ends : Ends absent validate outcome result) (renders : Renders shows result response) :
    Reports absent validate valid shows outcome response := by
  have reads := ends.reads validates
  constructor
  case success =>
    intro success
    cases finished : result with
    | ok data => exact ⟨data, (brings_of_ends ends).mp finished⟩
    | error error =>
      rw [finished] at renders
      obtain rfl : response = .ofError error := renders
      have failed := isSuccess_of_error validates ends finished
      rw [Response.ofError, failed] at success
      cases success
  case failure =>
    intro nothing
    cases finished : result with
    | ok data => exact absurd ((brings_of_ends ends).mp finished) (nothing data)
    | error error =>
      rw [finished] at renders
      exact ⟨error, renders⟩
  case data =>
    intro data brings
    rw [(brings_of_ends ends).mpr brings] at renders
    exact renders
  case rejected =>
    intro status body same refused unknown above below
    rw [(reads.service_iff status _).mpr ⟨body, same, refused, unknown, rfl⟩] at renders
    obtain rfl : response = .ofError _ := renders
    exact if_pos ⟨above, below⟩
  case badGateway_iff =>
    cases finished : result with
    | ok data =>
      rw [finished] at renders
      have plain := shown data response renders
      simp only [conflict] at plain
      apply iff_of_false _ (not_isBadGateway_of_data ends mistakes finished)
      simp only [badGateway]
      omega
    | error error =>
      rw [finished] at renders
      obtain rfl : response = .ofError error := renders
      exact badGateway_iff_of_error validates ends finished
  case invalid =>
    intro status body document same above below found wrong
    obtain ⟨whole, accepted⟩ := reads.validated status body document same above below found
    cases finished : result with
    | ok data => exact absurd (accepted.mp ⟨data, finished⟩) wrong
    | error error =>
      rw [finished] at renders whole
      obtain rfl : response = .ofError error := renders
      exact badRequest_of_refused validates whole.symm

/-! ## Searches that cannot be carried out -/

namespace SearchParameters

variable {parameters : SearchParameters}

theorem exists_operator (named : Text.isBlankText (parameters.operator.getD "") = false) :
    ∃ text, parameters.operator = some text ∧ Text.isBlankText text = false := by
  cases given : parameters.operator with
  | none =>
    rw [given] at named
    cases named
  | some text => exact ⟨text, rfl, by simpa [given] using named⟩

/-- A search that comes to a query is valid, and its query is of the kind. -/
theorem isValid_of_query {query : Query} (asked : parameters.query = .ok query) :
    parameters.IsValid ∧ query.kind = parameters.kind := by
  by_cases named : Text.isBlankText (parameters.operator.getD "") = false
  · obtain ⟨text, given, plain⟩ := exists_operator named
    cases read : Operator.read text with
    | error error =>
      rw [parameters.query_of_unreadable given plain (by simp [read])] at asked
      cases asked
    | ok operator =>
      have joins := parameters.query_joins given read
      rw [asked] at joins
      obtain ⟨first, second, own⟩ := joins.ok
      exact ⟨⟨first, fun _ => ⟨operator, by rw [given]; exact read⟩, fun _ => second⟩, own⟩
  · have selects := parameters.query_selects (by simpa using named)
    rw [asked] at selects
    obtain ⟨first, own⟩ := selects.ok
    exact ⟨⟨first, fun plain => absurd plain named, fun plain => absurd plain named⟩, own⟩

/-- A search that comes to none is not valid, and is a mistake of the request. -/
theorem not_isValid_of_query {error : Error} (refused : parameters.query = .error error) :
    ¬ parameters.IsValid ∧ statusOf error = badRequest := by
  by_cases named : Text.isBlankText (parameters.operator.getD "") = false
  · obtain ⟨text, given, plain⟩ := exists_operator named
    cases read : Operator.read text with
    | error error' =>
      rw [parameters.query_of_unreadable given plain (by simp [read])] at refused
      cases refused
      constructor
      · intro valid
        obtain ⟨operator, read'⟩ := valid.operator named
        rw [given, Option.getD_some, read] at read'
        cases read'
      · split <;> rfl
    | ok operator =>
      have joins := parameters.query_joins given read
      rw [refused] at joins
      obtain ⟨wrong, rfl | rfl⟩ := joins.error
      · exact ⟨fun valid => wrong valid.field (valid.field2 named), rfl⟩
      · exact ⟨fun valid => wrong valid.field (valid.field2 named), rfl⟩
  · have selects := parameters.query_selects (by simpa using named)
    rw [refused] at selects
    obtain ⟨outside, rfl⟩ := selects.error
    exact ⟨fun valid => outside valid.field, rfl⟩

end SearchParameters

/-! ## The handlers that read -/

variable {app : App} {kind : Kind} {rule : Outcome → Response → Prop}

theorem noneFound_mistakes (status : Nat) (list : List Record) (known : noneFound status = some list) :
    400 ≤ status ∧ status < 500 := by
  unfold noneFound at known
  split at known
  · omega
  · cases known

theorem renders_respond {toJson : α → Json} :
    Renders (fun data response => response = .ofJson (toJson data)) result (respond toJson result) := by
  cases result with
  | ok data => exact rfl
  | error error => exact rfl

/-- The answer to an effect if every call has one outcome and nothing has ever happened to the state. -/
def Effect.reply (outcome : Outcome) : (effect : Effect) → effect.Answer
  | .send _ => outcome
  | .change _ => .start

/-- A handler whose every run has one outcome has a run for every outcome. -/
theorem answers_of_runs {handler : Handler Response}
    (ruled : ∀ events response, handler.Runs events response →
      ∃ outcome, outcomesOf events = [outcome] ∧ rule outcome response) : Answers handler rule where
  total outcome := by
    obtain ⟨events, response, run, replied⟩ := handler.exists_runs (Effect.reply outcome)
    obtain ⟨other, only, -⟩ := ruled events response run
    have came : other ∈ outcomesOf events := by simp [only]
    obtain ⟨⟨effect, answer⟩, member, same⟩ := List.mem_filterMap.mp came
    cases effect with
    | change step => cases same
    | send request =>
      cases same
      obtain rfl : other = outcome := replied _ member
      exact ⟨events, response, run, only⟩
  ruled := ruled

/-- A handler that makes one call and nothing else. -/
theorem answers_of_send {request : Request} {respond : Outcome → Response}
    (ruled : ∀ outcome, rule outcome (respond outcome)) :
    Answers (.ask (.send request) fun outcome => .done (respond outcome)) rule := by
  apply answers_of_runs
  intro events response run
  obtain ⟨outcome, later, rfl, rest⟩ := runs_ask.mp run
  obtain ⟨rfl, rfl⟩ := runs_done.mp rest
  exact ⟨outcome, rfl, ruled outcome⟩

theorem appGet_eq {id : String} :
    app.get kind id = .ask (.send ⟨.get, app.client.recordUrl kind id, none⟩) fun outcome =>
      .done (respond Record.toJson (outcome.document >>= Record.ofJson kind)) := rfl

theorem appSearch_eq {parameters : SearchParameters} {query : Query} (asked : parameters.query = .ok query) :
    app.search parameters =
      .ask (.send ⟨.get, app.client.url searchPath "q" query.compile, none⟩) fun outcome =>
        .done (respond (foundJson query) (Client.found query.kind outcome)) := by
  simp only [App.search, asked, Client.searchQuery_eq, Handler.call_send, ask_bind, done_bind]
  rfl

/-- A search that is not valid is refused before anything is sent. -/
theorem appSearch_refused {parameters : SearchParameters} {error : Error}
    (wrong : parameters.query = .error error) : app.search parameters = .done (.ofError error) := by
  simp only [App.search, wrong]
  rfl

/-- What a ranking shows of the records that were found, or that it was overtaken. -/
def ShowsRanking (kind : Kind) (k : Nat) (list : List Record) (response : Response) : Prop :=
  response.Ranks kind k (Ranking.top list scoreAttribute k) ∨ response = .stale

/-- A ranking makes one call as well, between a step on the shared state and a look at it. -/
theorem answers_top {count : Option Nat}
    (ruled : ∀ outcome response,
      Renders (ShowsRanking kind (count.getD app.topK)) (Client.found kind outcome) response →
        rule outcome response) : Answers (app.top kind count) rule := by
  apply answers_of_runs
  intro events response run
  cases top_stage (runs_iff_after.mp run) with
  | @failed before outcome error wrong =>
    refine ⟨outcome, rfl, ruled outcome _ ?_⟩
    rw [rankingOf_error wrong]
    exact rfl
  | @checked before outcome entries right now =>
    refine ⟨outcome, rfl, ruled outcome _ ?_⟩
    cases found : Client.found kind outcome with
    | error error =>
      rw [rankingOf, found] at right
      cases right
    | ok list =>
      rw [rankingOf, found] at right
      cases right
      unfold verdict
      split
      · exact .inl rfl
      · exact .inr rfl

/-- **No failed read is reported as a success.** Whatever the service does, the response to a request for a
record, a search or a ranking reports on the outcome, and on the data where there are any; a search or a
ranking has none if the service says that nothing is there. A search that is not valid is a bad request. -/
theorem no_failure_reported_as_success (app : App) :
    (∀ kind id, Answers (app.get kind id)
      (Reports (fun _ => none) (Record.ofJson kind) (·.IsRecord kind)
        fun record response => response = .ofJson record.toJson)) ∧
      (∀ parameters : SearchParameters, parameters.IsValid → ∃ query, parameters.query = .ok query ∧
        Answers (app.search parameters) (Reports noneFound (records parameters.kind)
          (·.HoldsRecords parameters.kind) fun list response => response = .ofJson (.object
            [("query", .text query.compile), ("records", .array (list.map Record.toJson))]))) ∧
      (∀ parameters : SearchParameters, ¬ parameters.IsValid →
        ∃ error, app.search parameters = .done (.ofError error) ∧ statusOf error = badRequest) ∧
      ∀ kind count, Answers (app.top kind count) (Reports noneFound (records kind)
        (·.HoldsRecords kind) (ShowsRanking kind (count.getD app.topK))) := by
  refine ⟨fun kind id => ?get, fun parameters valid => ?search, fun parameters invalid => ?refused,
    fun kind count => ?top⟩
  case get =>
    rw [appGet_eq]
    refine answers_of_send fun outcome =>
      reports_of_ends ofJson_validates ?_ ?_ (ends_document fun _ _ _ => rfl) renders_respond
    · rintro status record told
      cases told
    · rintro record response rfl
      exact .inl rfl
  case search =>
    cases asked : parameters.query with
    | error error => exact absurd valid (SearchParameters.not_isValid_of_query asked).1
    | ok query =>
      rw [appSearch_eq asked, ← (SearchParameters.isValid_of_query asked).2]
      refine ⟨query, rfl, answers_of_send fun outcome =>
        reports_of_ends records_validates noneFound_mistakes ?_ ends_found renders_respond⟩
      rintro list response rfl
      exact .inl rfl
  case refused =>
    cases asked : parameters.query with
    | ok query => exact absurd (SearchParameters.isValid_of_query asked).1 invalid
    | error error =>
      exact ⟨error, appSearch_refused asked, (SearchParameters.not_isValid_of_query asked).2⟩
  case top =>
    apply answers_top
    intro outcome response renders
    refine reports_of_ends records_validates noneFound_mistakes ?_ ends_found renders
    rintro list response (rfl | rfl)
    · exact .inl rfl
    · exact .inr rfl

/-- A search whose service is down has the status of the service, and one by an operator that is none is a
bad request. -/
theorem no_failure_reported_as_success_down :
    let app : App := ⟨⟨"http://shelf"⟩, 5⟩
    let down : Outcome := .answered 503 "<html>".toUTF8
    (∃ events response, (app.search ⟨.author, "name", "Austen", none, none, none⟩).Runs events response ∧
      outcomesOf events = [down] ∧ response.status = 503) ∧
    ∃ response, app.search ⟨.author, "name", "Austen", some "XOR", some "name", none⟩ = .done response ∧
      response.status = badRequest := by
  intro app down
  obtain ⟨-, searched, refused, -⟩ := no_failure_reported_as_success app
  constructor
  · have valid : SearchParameters.IsValid ⟨.author, "name", "Austen", none, none, none⟩ := by
      refine ⟨by decide, ?_, ?_⟩ <;> exact fun named => absurd named (by decide)
    obtain ⟨query, -, answers⟩ := searched _ valid
    obtain ⟨events, response, run, only⟩ := answers.total down
    obtain ⟨outcome, same, reports⟩ := answers.ruled events response run
    obtain rfl : down = outcome := List.singleton_inj.mp (only.symm.trans same)
    exact ⟨events, response, run, only, reports.rejected 503 _ rfl (by decide) rfl (by decide) (by decide)⟩
  · have unreadable : Operator.read "XOR" = .error (.unknownOperator "XOR") := by with_unfolding_all rfl
    have invalid :
        ¬ SearchParameters.IsValid ⟨.author, "name", "Austen", some "XOR", some "name", none⟩ := by
      intro valid
      obtain ⟨operator, read⟩ := valid.operator (by decide)
      rw [Option.getD_some, unreadable] at read
      cases read
    obtain ⟨error, done, status⟩ := refused _ invalid
    exact ⟨_, done, status⟩

end BookCatalog.Web
