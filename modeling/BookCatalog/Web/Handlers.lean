import BookCatalog.Chart.Drawing
import BookCatalog.Service.Client
import BookCatalog.Web.Response
import BookCatalog.Web.State

/-!
The requests that the web front end answers. A handler takes single steps on the shared state and
makes calls to the service in between. Records that are sent off leave the state before the call and
come back if the call gets no answer, in front of whatever was added meanwhile. A ranking takes a
ticket before its call and is dropped after it if another ticket has been issued.
-/
namespace BookCatalog.Web

open Service

/-- What a handler asks of its surroundings. -/
inductive Effect where
  | send (request : Request)
  /-- One step on the shared state. -/
  | change (step : State → State)

/-- What it gets: an outcome, and the state that the step was taken on. -/
abbrev Effect.Answer : Effect → Type
  | .send _ => Outcome
  | .change _ => State

/-- A computation with these effects. -/
abbrev Handler (α : Type) : Type := Interaction Effect Effect.Answer α

namespace Handler

/-- Takes a step on the shared state and gives the state before it. -/
def change (step : State → State) : Handler State := Interaction.request (Effect.change step)

/-- The shared state as it is. -/
def look : Handler State := change id

/-- Makes a call to the service. -/
def call {α : Type} (exchange : Exchange α) : Handler α :=
  exchange.embed fun request => Interaction.request (Effect.send request)

end Handler

/-- What all requests go by. -/
structure App where
  client : Client
  /-- Size of a ranking that a request does not state. -/
  topK : Nat

/-- The front end that the settings describe. -/
def App.ofSettings (settings : Settings) : App := ⟨Client.ofSettings settings, settings.topK⟩

/-- A search as a request states it. -/
structure SearchParameters where
  kind : Kind
  field : String
  value : String
  operator : Option String
  field2 : Option String
  value2 : Option String

/-- The query of a search: single if no operator is named, and compound otherwise. An operator
without a second field is refused, not overlooked. -/
def SearchParameters.query (parameters : SearchParameters) : Except Error Query := do
  let first : Clause := ⟨← Field.resolve parameters.kind parameters.field, parameters.value⟩
  let word := Text.trim (parameters.operator.getD "")
  if word.isEmpty then return .single first
  else
    let operator ← Operator.read word
    let second : Clause :=
      ⟨← Field.resolve parameters.kind (parameters.field2.getD ""), parameters.value2.getD ""⟩
    Query.join first operator second

/-- The waiting records of a kind as a document, with their number. -/
def pendingJson (kind : Kind) (pending : Nat) (records : List Record) : Json :=
  .object [("kind", .text kind.name), ("pending", .ofNat pending),
    ("records", .array (records.map Record.toJson))]

/-- The records that a query has found as a document. -/
def foundJson (query : Query) (records : List Record) : Json :=
  .object [("query", .text query.compile), ("records", .array (records.map Record.toJson))]

/-- A result as a document, or the error in its place. -/
def respond {α : Type} (toJson : α → Json) (result : Except Error α) : Response :=
  match result with
  | .ok value => .ofJson (toJson value)
  | .error error => .ofError error

/-- A ranking as a document, with its chart. -/
def topJson (kind : Kind) (k : Nat) (entries : List (Ranking.Entry Float)) : Json :=
  let model := Chart.Layout.standard.project entries
  .object [("kind", .text kind.name), ("k", .ofNat k), ("dataset", Ranking.toJson entries),
    ("chart", model.toJson),
    ("svg", .text (model.render (Chart.caption kind entries.length)))]

namespace App

/-- Shows a record. -/
def get (app : App) (kind : Kind) (id : String) : Handler Response := do
  return respond Record.toJson (← Handler.call (app.client.get kind id))

/-- Deletes a record. -/
def delete (app : App) (kind : Kind) (id : String) : Handler Response := do
  return respond Reply.toJson (← Handler.call (app.client.delete kind id))

/-- Replaces attributes of a record. -/
def update (app : App) (kind : Kind) (id : String) (body : Json) : Handler Response :=
  match Record.ofJson kind body with
  | .error error => return .ofError error
  | .ok record => do return respond Reply.toJson (← Handler.call (app.client.update id record))

/-- Creates a record. -/
def create (app : App) (kind : Kind) (body : Json) : Handler Response :=
  match Record.ofJson kind body with
  | .error error => return .ofError error
  | .ok record => do return respond Reply.toJson (← Handler.call (app.client.create record))

/-- Shows the records that a query finds. -/
def search (app : App) (parameters : SearchParameters) : Handler Response :=
  match parameters.query with
  | .error error => return .ofError error
  | .ok query => do
    return respond (foundJson query) (← Handler.call (app.client.searchQuery query))

/-- Shows the best records of a kind, unless a newer ranking is under way. -/
def top (app : App) (kind : Kind) (count : Option Nat) : Handler Response := do
  let k := count.getD app.topK
  let before ← Handler.change State.issue
  let ticket := before.ranking.issue.1
  match ← Handler.call (app.client.top kind k) with
  | .error error => return .ofError error
  | .ok entries =>
    let now ← Handler.look
    if now.ranking.isCurrent ticket then return .ofJson (topJson kind k entries)
    else return .stale

/-- Shows the waiting records of a kind. -/
def pending (_app : App) (kind : Kind) : Handler Response := do
  let records := ((← Handler.look).batch kind).records
  return .ofJson (pendingJson kind records.length records)

/-- Adds a record to those that wait. -/
def append (_app : App) (kind : Kind) (body : Json) : Handler Response :=
  match Record.ofJson kind body with
  | .error error => return .ofError error
  | .ok record => do
    let before ← Handler.change (·.append kind record)
    let (answer, left) := (before.batch kind).push record
    return respond (pendingJson kind · left.records) answer

/-- Creates the waiting records of a kind. -/
def flush (app : App) (kind : Kind) : Handler Response := do
  let before ← Handler.change (·.clear kind)
  let (result, left) ← Handler.call (app.client.flush (before.batch kind))
  unless left.records.isEmpty do
    let _ ← Handler.change (·.restore kind left.records)
  return respond Reply.toJson result

/-- Has the service scrape a page. -/
def scrape (app : App) (page : String) : Handler Response := do
  return respond Reply.toJson (← Handler.call (app.client.scrape page))

end App
end BookCatalog.Web
