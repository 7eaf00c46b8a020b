import BookCatalog.Proofs.Record.Reading
import BookCatalog.Proofs.Service.Bulk

/-!
How calls of the service tell outcomes apart. There are seven calls and two rules. A call that reads
wants a document, so it takes every status but success for a refusal, unless the status says that there is
nothing to read. A call that changes something shows whatever it is answered. Both rules are stated in
terms of the status and the bytes of the body, for every status and any bytes.
-/
namespace BookCatalog.Service

/-- An outcome that a reading call can do nothing with: no answer, or a success without a document. -/
def Outcome.IsUnusable : Outcome → Prop
  | .unanswered => True
  | .answered status body => (200 ≤ status ∧ status < 300) ∧ Json.readBytes? body = none

/-- What a document says in one line: an object says the text of each field behind its key, and any other
value its own. -/
def said : Json → String
  | .object fields => "; ".intercalate (fields.map fun field => field.1 ++ ": " ++ field.2.plain)
  | document => document.plain

/-- What the body of an answer says. -/
def described (body : ByteArray) : String :=
  match Json.readBytes? body with
  | some document => said document
  | none => "error: invalid json"

/-- The rule of a reading call: what it makes of the outcome of its request. Some statuses mean that there
is nothing to read, and stand for a value of their own; the document of a success is validated, and is
accepted if it is valid. -/
structure Reads {α : Type} (absent : Nat → Option α) (validate : Json → Except Error α)
    (valid : Json → Prop) (outcome : Outcome) (result : Except Error α) : Prop where
  network_iff : (∃ cause, result = .error (.network cause)) ↔ outcome.IsUnusable
  service_iff : ∀ status message, result = .error (.service status message) ↔
    ∃ body, outcome = .answered status body ∧ ¬ (200 ≤ status ∧ status < 300) ∧ absent status = none ∧
      message = described body
  nothing : ∀ status body value, outcome = .answered status body → absent status = some value →
    result = .ok value
  validated : ∀ status body document, outcome = .answered status body → 200 ≤ status → status < 300 →
    Json.readBytes? body = some document →
      result = validate document ∧ ((∃ value, result = .ok value) ↔ valid document)

/-- The rule of a changing call: every answer counts, with the status and the document that it has, or one
that says that it has none. -/
structure Changes (outcome : Outcome) (result : Except Error Reply) : Prop where
  network_iff : (∃ cause, result = .error (.network cause)) ↔ outcome = .unanswered
  document : ∀ status body document, outcome = .answered status body →
    Json.readBytes? body = some document → result = .ok ⟨status, document⟩
  noDocument : ∀ status body, outcome = .answered status body → Json.readBytes? body = none →
    result = .ok ⟨status, .object [("error", .text "invalid json")]⟩
  not_service : ∀ status message, result ≠ .error (.service status message)

/-- A call makes one request, and its result follows a rule for any outcome. -/
def Follows {α : Type} (call : Exchange α) (rule : Outcome → α → Prop) : Prop :=
  ∃ (request : Request) (read : Outcome → α),
    call = .ask request (fun outcome => .done (read outcome)) ∧ ∀ outcome, rule outcome (read outcome)

/-- No record is there to be found. -/
def noneFound (status : Nat) : Option (List Record) := if status = 404 then some [] else none

variable {kind : Kind} {client : Client} {α : Type} {outcome : Outcome}

theorem isSuccess_iff {status : Nat} : isSuccess status = true ↔ 200 ≤ status ∧ status < 300 := by
  simp [isSuccess]

theorem describe_eq_said (document : Json) : document.describe = said document := by
  cases document <;> rfl

theorem said_lenientBody {body : ByteArray} : said (lenientBody body) = described body := by
  unfold lenientBody described
  cases Json.readBytes? body with
  | some document => rfl
  | none => rfl

/-- A validation accepts the valid documents and no others, and has errors of its own: it never blames the
service or the network. -/
structure Validates (validate : Json → Except Error α) (valid : Json → Prop) : Prop where
  accepts_iff : ∀ document, (∃ value, validate document = .ok value) ↔ valid document
  refuses : ∀ document error, validate document = .error error →
    error = .notAnObject ∨ ∃ kind name, error = .unknownAttribute kind name

theorem ofJson_validates : Validates (Record.ofJson kind) (·.IsRecord kind) where
  accepts_iff _ := Record.exists_ofJson_iff
  refuses _ _ failed := (Record.error_of_ofJson failed).imp_right fun named => ⟨kind, named⟩

theorem records_validates : Validates (records kind) (·.HoldsRecords kind) where
  accepts_iff _ := exists_records_iff
  refuses _ _ failed := (error_of_records failed).imp_right fun named => ⟨kind, named⟩

section Validates

variable {validate : Json → Except Error α} {valid : Json → Prop} {document : Json}

theorem Validates.ne_network (validates : Validates validate valid) (cause : NetworkCause) :
    validate document ≠ .error (.network cause) := by
  intro failed
  rcases validates.refuses _ _ failed with refused | ⟨kind, name, refused⟩ <;> cases refused

theorem Validates.ne_service (validates : Validates validate valid) (status : Nat) (message : String) :
    validate document ≠ .error (.service status message) := by
  intro failed
  rcases validates.refuses _ _ failed with refused | ⟨kind, name, refused⟩ <;> cases refused

end Validates

theorem document_of_success {status : Nat} {body : ByteArray} (success : 200 ≤ status ∧ status < 300) :
    (Outcome.answered status body).document =
      match Json.readBytes? body with
      | some document => .ok document
      | none => .error (.network .decode) := by
  have succeeded : isSuccess status = true := isSuccess_iff.mpr success
  cases found : Json.readBytes? body with
  | some document => simp [Outcome.document, succeeded, found]
  | none => simp [Outcome.document, succeeded, found]

theorem document_of_refusal {status : Nat} {body : ByteArray} (refused : ¬ (200 ≤ status ∧ status < 300)) :
    (Outcome.answered status body).document = .error (.service status (described body)) := by
  have failure : isSuccess status = false := by
    rw [← Bool.not_eq_true, isSuccess_iff]
    exact refused
  simp only [Outcome.document, failure, rejection, describe_eq_said, said_lenientBody]
  rfl

/-! ## How a reading call ends -/

/-- The ways in which a reading call can end. -/
inductive Ends (absent : Nat → Option α) (validate : Json → Except Error α) :
    Outcome → Except Error α → Prop where
  | unanswered : Ends absent validate .unanswered (.error (.network .transport))
  | absent {status : Nat} {body : ByteArray} {value : α} (refused : ¬ (200 ≤ status ∧ status < 300))
      (known : absent status = some value) : Ends absent validate (.answered status body) (.ok value)
  | refused {status : Nat} {body : ByteArray} (refused : ¬ (200 ≤ status ∧ status < 300))
      (unknown : absent status = none) :
      Ends absent validate (.answered status body) (.error (.service status (described body)))
  | garbled {status : Nat} {body : ByteArray} (success : 200 ≤ status ∧ status < 300)
      (unknown : absent status = none) (garbled : Json.readBytes? body = none) :
      Ends absent validate (.answered status body) (.error (.network .decode))
  | validated {status : Nat} {body : ByteArray} {document : Json} (success : 200 ≤ status ∧ status < 300)
      (unknown : absent status = none) (found : Json.readBytes? body = some document) :
      Ends absent validate (.answered status body) (validate document)

variable {absent : Nat → Option α} {validate : Json → Except Error α} {valid : Json → Prop}
  {result : Except Error α}

theorem Ends.network_iff (ends : Ends absent validate outcome result)
    (validates : Validates validate valid) :
    (∃ cause, result = .error (.network cause)) ↔ outcome.IsUnusable := by
  cases ends with
  | unanswered => simp [Outcome.IsUnusable]
  | absent refused => simp [Outcome.IsUnusable, refused]
  | refused refused => simp [Outcome.IsUnusable, refused]
  | garbled success _ garbled => simp [Outcome.IsUnusable, success, garbled]
  | validated _ _ found => simp [Outcome.IsUnusable, found, validates.ne_network]

theorem Ends.service_iff (ends : Ends absent validate outcome result)
    (validates : Validates validate valid) {status : Nat} {message : String} :
    result = .error (.service status message) ↔
      ∃ body, outcome = .answered status body ∧ ¬ (200 ≤ status ∧ status < 300) ∧ absent status = none ∧
        message = described body := by
  constructor
  · intro blamed
    cases ends with
    | refused refused unknown =>
      cases blamed
      exact ⟨_, rfl, refused, unknown, rfl⟩
    | validated => exact absurd blamed (validates.ne_service status message)
    | unanswered | absent | garbled => cases blamed
  · rintro ⟨body, rfl, refused, unknown, rfl⟩
    cases ends with
    | absent _ known =>
      rw [unknown] at known
      cases known
    | refused => rfl
    | garbled success => exact absurd success refused
    | validated success => exact absurd success refused

/-- However a reading call ends, it has kept to the rule. -/
theorem Ends.reads (ends : Ends absent validate outcome result) (validates : Validates validate valid) :
    Reads absent validate valid outcome result where
  network_iff := ends.network_iff validates
  service_iff status message := ends.service_iff validates
  nothing status body value same known := by
    subst same
    cases ends with
    | absent _ known' => rw [Option.some.inj (known'.symm.trans known)]
    | refused _ unknown | garbled _ unknown | validated _ unknown =>
      rw [unknown] at known
      cases known
  validated status body document same above below found := by
    subst same
    cases ends with
    | absent refused => exact absurd ⟨above, below⟩ refused
    | refused refused => exact absurd ⟨above, below⟩ refused
    | garbled _ _ garbled =>
      rw [garbled] at found
      cases found
    | validated _ _ found' =>
      obtain rfl := Option.some.inj (found'.symm.trans found)
      exact ⟨rfl, validates.accepts_iff _⟩

/-- Reading a document and validating it, as long as the status says nothing else. -/
theorem ends_document (unknown : ∀ status body, outcome = .answered status body → absent status = none) :
    Ends absent validate outcome (outcome.document >>= validate) := by
  cases outcome with
  | unanswered => exact .unanswered
  | answered status body =>
    have unknown := unknown status body rfl
    by_cases success : 200 ≤ status ∧ status < 300
    · rw [document_of_success success]
      cases found : Json.readBytes? body with
      | none => exact .garbled success unknown found
      | some document => exact .validated success unknown found
    · rw [document_of_refusal success]
      exact .refused success unknown

theorem changes_reply : Changes outcome outcome.reply where
  network_iff := by cases outcome <;> simp [Outcome.reply]
  document status body document same found := by
    rw [same, Outcome.reply, lenientBody, found]
    rfl
  noDocument status body same garbled := by
    rw [same, Outcome.reply, lenientBody, garbled]
    rfl
  not_service status message := by cases outcome <;> simp [Outcome.reply]

/-! ## The calls -/

theorem found_eq_document (other : ∀ body, outcome ≠ .answered 404 body) :
    Client.found kind outcome = outcome.document >>= records kind := by
  unfold Client.found
  split
  · exact absurd rfl (other _)
  · rfl

/-- A search ends with nothing found for what is not there. -/
theorem ends_found : Ends noneFound (records kind) outcome (Client.found kind outcome) := by
  by_cases missing : ∃ body, outcome = .answered 404 body
  · obtain ⟨body, rfl⟩ := missing
    exact .absent (by decide) rfl
  · rw [found_eq_document (not_exists.mp missing)]
    apply ends_document
    rintro status body rfl
    apply if_neg
    rintro rfl
    exact missing ⟨body, rfl⟩

theorem follows_send {request : Request} {read : Outcome → Except Error α}
    {rule : Outcome → Except Error α → Prop} (ruled : ∀ outcome, rule outcome (read outcome)) :
    Follows (Client.send request read) rule :=
  ⟨request, read, rfl, ruled⟩

namespace Client

/-- **All calls tell outcomes apart alike.** Fetching a record, and searching with a text that names a kind,
fail as the network does exactly if there was no answer or a success without a document; they blame the
service exactly for the other statuses, with that status and what its body says, except that a search
takes one of them for an empty result. What is left is validated. A call that changes something, once
its own checks have passed, fails only if there was no answer. -/
theorem outcomes_told_apart (client : Client) :
    (∀ kind id, Follows (client.get kind id)
      (Reads (fun _ => none) (Record.ofJson kind) (·.IsRecord kind))) ∧
      (∀ query kind, Query.kindOf query = .ok kind →
        Follows (client.search query) (Reads noneFound (records kind) (·.HoldsRecords kind))) ∧
      (∀ kind id, Follows (client.delete kind id) Changes) ∧
      (∀ id record, Follows (client.update id record) Changes) ∧
      (∀ record : Record, record.identifier?.isSome = true → Follows (client.create record) Changes) ∧
      (∀ kind (batch : List Record), (∀ record ∈ batch, record.kind = kind) →
        Follows (client.createMany kind batch) Changes) ∧
      ∀ page, Follows (client.scrape page) Changes := by
  have changes : ∀ request, Follows (send request Outcome.reply) Changes :=
    fun request => follows_send fun _ => changes_reply
  refine ⟨fun kind id => ?get, fun query kind named => ?search, fun kind id => changes _,
    fun id record => changes _, fun record identified => ?create, fun kind batch same => ?createMany,
    fun page => changes _⟩
  case get =>
    apply follows_send
    exact fun outcome => (ends_document fun _ _ _ => rfl).reads ofJson_validates
  case search =>
    rw [search, named]
    exact follows_send fun _ => ends_found.reads records_validates
  case create =>
    obtain ⟨id, identified⟩ := Option.isSome_iff_exists.mp identified
    rw [create, identified]
    exact changes _
  case createMany =>
    rw [createMany_of_same_kind same]
    exact ⟨_, _, rfl, fun _ => changes_reply⟩

/-- A page of text instead of a document is a rejection to a search, unless its status says that nothing
is there, and an answer to the creation of one record or of two. A document in its place tells why the
search was rejected, field by field. -/
theorem outcomes_told_apart_page :
    let client : Client := ⟨"http://shelf"⟩
    let page := "<html>".toUTF8
    let notice := "\x7b\"error\":\"down\",\"detail\":[\"shelf\",7,null]\x7d".toUTF8
    let excuse : Json := .object [("error", .text "invalid json")]
    let first : Record := ⟨.book, [("book_id", .text "1")]⟩
    let second : Record := ⟨.book, [("book_id", .text "2")]⟩
    Json.readBytes? page = none ∧
      (Follows (client.search "author.name:Austen") fun outcome result =>
        (outcome = .answered 404 page → result = .ok []) ∧
          (outcome = .answered 503 page → result = .error (.service 503 "error: invalid json")) ∧
          (outcome = .answered 503 notice → result = .error (.service 503 "detail: shelf,7,; error: down"))) ∧
      (Follows (client.create first) fun outcome result =>
        outcome = .answered 503 page → result = .ok ⟨503, excuse⟩) ∧
      Follows (client.createMany .book [first, second]) fun outcome result =>
        outcome = .answered 404 page → result = .ok ⟨404, excuse⟩ := by
  intro client page notice excuse first second
  have garbled : Json.readBytes? "<html>".toUTF8 = none := by with_unfolding_all rfl
  obtain ⟨-, search, -, -, create, createMany, -⟩ := outcomes_told_apart client
  refine ⟨garbled, ?search, ?create, ?createMany⟩
  case search =>
    obtain ⟨request, read, sent, ruled⟩ := search "author.name:Austen" .author rfl
    refine ⟨request, read, sent, fun outcome => ⟨fun missing => ?_, fun refused => ?_, fun refused => ?_⟩⟩
    · exact (ruled outcome).nothing 404 page [] missing rfl
    · exact ((ruled outcome).service_iff 503 _).mpr ⟨page, refused, by decide, rfl, by decide +kernel⟩
    · exact ((ruled outcome).service_iff 503 _).mpr ⟨notice, refused, by decide, rfl, by decide +kernel⟩
  case create =>
    obtain ⟨request, read, sent, ruled⟩ := create first rfl
    exact ⟨request, read, sent, fun outcome refused => (ruled outcome).noDocument 503 page refused garbled⟩
  case createMany =>
    obtain ⟨request, read, sent, ruled⟩ := createMany .book [first, second] (by simp [first, second])
    exact ⟨request, read, sent, fun outcome missing => (ruled outcome).noDocument 404 page missing garbled⟩

end Client
end BookCatalog.Service
