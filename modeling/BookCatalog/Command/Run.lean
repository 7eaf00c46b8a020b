import BookCatalog.Chart.Drawing
import BookCatalog.Command.Arguments
import BookCatalog.Command.Input
import BookCatalog.Ranking.Table
import BookCatalog.Service.Client

/-!
Carrying a command out. A command reads the settings, checks what it is given, makes one round trip
and prints one rendering of what came of it, as text or as an indented document. A reading command
prints when it succeeds. A changing command prints whatever the service answered, and succeeds if
the answer does.
-/
namespace BookCatalog.Command

open Service

/-- What a command asks of its surroundings. -/
inductive Effect where
  | send (request : Request)
  | load (path : String)
  | store (path content : String)
  | print (line : String)

/-- What it gets: an outcome, the file's content if it can be read, and whether the file could be
written. -/
def Effect.Answer : Effect → Type
  | .send _ => Outcome
  | .load _ => Option String
  | .store .. => Bool
  | .print _ => Unit

/-- A computation with these effects that may fail. -/
abbrev Session (α : Type) : Type := ExceptT Failure (Interaction Effect Effect.Answer) α

namespace Session

/-- A value, or the failure that stands in its place. -/
def ofExcept {α : Type} : Except Failure α → Session α
  | .ok value => pure value
  | .error failure => throw failure

/-- Asks for one effect. -/
def effect (op : Effect) : Session op.Answer := ExceptT.lift (Interaction.request op)

/-- Makes a call to the service. -/
def call {α : Type} (exchange : Exchange (Except Error α)) : Session α :=
  ExceptT.mk do
    let result ← exchange.embed fun request => Interaction.request (Effect.send request)
    return result.mapError .catalog

end Session

/-- Prints a document or a text, as the command line says. -/
def emit (json : Bool) (document : Json) (text : String) : Session Unit :=
  Session.effect (.print (if json then document.pretty else text))

/-- Prints a reply and fails unless it is a success. -/
def emitReply (json : Bool) (reply : Reply) : Session Unit := do
  emit json reply.toJson reply.listing
  unless reply.isSuccess do throw (.rejected reply.status)

/-- The records in a file. -/
def loadRecords (kind : Kind) (path : String) : Session (List Record) := do
  match ← Session.effect (.load path) with
  | some content => Session.ofExcept (readRecords kind content)
  | none => throw (.unreadable path)

/-- Writes the chart of a ranking to a file. -/
def writeChart (kind : Kind) (entries : List (Ranking.Entry Float)) (path : String) :
    Session Unit := do
  let model := Chart.Layout.standard.project entries
  let written ← Session.effect
    (.store path (model.render (Chart.caption kind entries.length)))
  match (written : Bool) with
  | true => return
  | false => throw (.unwritable path)

/-- Carries out a command with the service and the settings that it goes by. -/
def run (client : Client) (settings : Settings) (json : Bool) : Command → Session Unit
  | .get kind id => do
    let record ← Session.call (client.get kind id)
    emit json record.toJson record.listing
  | .delete kind id => do emitReply json (← Session.call (client.delete kind id))
  | .search wanted => do
    let query ← Session.ofExcept (wanted.query.mapError .catalog)
    let records ← Session.call (client.searchQuery query)
    emit json (.array (records.map Record.toJson)) (Record.listingOf records)
  | .top kind count svg => do
    let entries ← Session.call (client.top kind (count.getD settings.topK))
    match svg with
    | some path => writeChart kind entries path
    | none => pure ()
    emit json (Ranking.toJson entries) (Ranking.table entries)
  | .update kind id assignments => do
    let record ← Session.ofExcept (readAssignments kind assignments)
    emitReply json (← Session.call (client.update id record))
  | .create kind assignments => do
    let record ← Session.ofExcept (readAssignments kind assignments)
    emitReply json (← Session.call (client.create record))
  | .createMany kind file => do
    let records ← loadRecords kind file
    emitReply json (← Session.call (client.createMany kind records))
  | .scrape target => do emitReply json (← Session.call (client.scrape target))

/-- Carries out a command line in an environment. -/
def execute (environment : Environment) (arguments : Arguments) : Session Unit := do
  let settings ← Session.ofExcept ((Settings.ofEnvironment environment).mapError .settings)
  let settings := match arguments.url with
    | some url => settings.withCatalogUrl url
    | none => settings
  arguments.command.run (Client.ofSettings settings) settings arguments.json

end BookCatalog.Command
