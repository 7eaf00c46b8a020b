import BookCatalog.Query.Compile
import BookCatalog.Ranking.Top
import BookCatalog.Record.Batch
import BookCatalog.Service.Exchange
import BookCatalog.Settings.Basic
import BookCatalog.Text.Percent

/-!
The calls of the service. Each checks what it can before it sends anything, sends one request at
most and never repeats it. Texts of users go into a URL in one percent-encoded parameter and nowhere
else.
-/
namespace BookCatalog.Service

/-! ## Paths -/

/-- Where searches go. -/
def searchPath : String := "/api/search"

/-- Where pages to be scraped are announced. -/
def scrapePath : String := "/api/scrape"

/-- Where a single record is read and changed. -/
def recordPath (kind : Kind) : String := "/api/" ++ kind.name

/-- Where many records are created together. -/
def collectionPath (kind : Kind) : String := "/api/" ++ kind.name ++ "s"

/-! ## Calls -/

/-- A service, known by its base URL. -/
structure Client where
  base : String

namespace Client

/-- The service at a URL; slashes at its end do not count. -/
def ofUrl (url : String) : Client := ⟨Settings.stripSlashes url⟩

/-- The service that the settings name. -/
def ofSettings (settings : Settings) : Client := ofUrl settings.catalogUrl

/-- The URL of a path with one parameter. -/
def url (client : Client) (path name value : String) : String :=
  client.base ++ path ++ "?" ++ name ++ "=" ++ Text.Percent.encode value

/-- The URL of the record with an identifier. -/
def recordUrl (client : Client) (kind : Kind) (id : String) : String :=
  client.url (recordPath kind) "id" id

/-- Sends a request and reads what comes of it. -/
def send {α : Type} (request : Request) (read : Outcome → Except Error α) :
    Exchange (Except Error α) := do
  let outcome ← Interaction.request request
  return read outcome

/-- What a search makes of an outcome: nothing found is an empty list. -/
def found (kind : Kind) : Outcome → Except Error (List Record)
  | .answered 404 _ => .ok []
  | outcome => outcome.document >>= records kind

/-- The records that match the text of a query, in the order of the service. The kind is read off
the text. -/
def search (client : Client) (query : String) : Exchange (Except Error (List Record)) :=
  match Query.kindOf query with
  | .error error => return .error error
  | .ok kind => send ⟨.get, client.url searchPath "q" query, none⟩ (found kind)

/-- The records that match a query. -/
def searchQuery (client : Client) (query : Query) : Exchange (Except Error (List Record)) :=
  client.search query.compile

/-- The `k` best records of a kind. -/
def top (client : Client) (kind : Kind) (k : Nat) :
    Exchange (Except Error (List (Ranking.Entry Float))) := do
  let records ← client.searchQuery (.all kind)
  return records.map fun records => Ranking.top records scoreAttribute k

/-- The record with an identifier. -/
def get (client : Client) (kind : Kind) (id : String) : Exchange (Except Error Record) :=
  send ⟨.get, client.recordUrl kind id, none⟩ fun outcome => outcome.document >>= Record.ofJson kind

/-- Deletes the record with an identifier. -/
def delete (client : Client) (kind : Kind) (id : String) : Exchange (Except Error Reply) :=
  send ⟨.delete, client.recordUrl kind id, none⟩ Outcome.reply

/-- Replaces attributes of the record with an identifier. The identifier travels in the URL only. -/
def update (client : Client) (id : String) (record : Record) : Exchange (Except Error Reply) :=
  send ⟨.put, client.recordUrl record.kind id, some (.object record.withoutIdentifier)⟩
    Outcome.reply

/-- Creates a record, which must have an identifier. -/
def create (client : Client) (record : Record) : Exchange (Except Error Reply) :=
  match record.identifier? with
  | none => return .error (.missingIdentifier record.kind)
  | some _ => send ⟨.post, client.base ++ recordPath record.kind, some record.toJson⟩ Outcome.reply

/-- Creates records together, which must all be of the kind. -/
def createMany (client : Client) (kind : Kind) (records : List Record) :
    Exchange (Except Error Reply) :=
  match records.find? (·.kind != kind) with
  | some other => return .error (.kindMismatch kind other.kind)
  | none =>
    send ⟨.post, client.base ++ collectionPath kind, some (.array (records.map Record.toJson))⟩
      Outcome.reply

/-- Creates the records of a batch. The batch is empty once the service has answered, and as it was
if it has not. -/
def flush (client : Client) (batch : Batch) : Exchange (Except Error Reply × Batch) := do
  let (records, rest) := batch.take
  match ← client.createMany rest.kind records with
  | .ok reply => return (.ok reply, rest)
  | .error error => return (.error error, rest.restore records)

/-- Has the service scrape a page and store what it finds. -/
def scrape (client : Client) (page : String) : Exchange (Except Error Reply) :=
  send ⟨.post, client.url scrapePath "attr" page, none⟩ Outcome.reply

end Client
end BookCatalog.Service
