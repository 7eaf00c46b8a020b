import BookCatalog.Proofs.Service.Call
import BookCatalog.Proofs.Service.Url
import BookCatalog.Proofs.Settings.Run

/-!
What a client does with its base URL. It keeps the one that the settings have, and puts the path of each of its
requests behind it. A path begins with a slash and goes on with something else, and the URL does not end in one; so
there is exactly one slash between the two.
-/
namespace BookCatalog.Service

open Interaction

/-- A text that begins with one slash and not with two. -/
def IsPath (path : String) : Prop := ∃ first rest, path.toList = '/' :: first :: rest ∧ first ≠ '/'

/-- A request for a path behind a base. -/
def Request.IsBelow (base : String) (request : Request) : Prop := ∃ path, request.url = base ++ path ∧ IsPath path

/-- The calls that a client has. -/
inductive Client.Offers (client : Client) : {α : Type} → Exchange α → Prop where
  | search (query : String) : client.Offers (client.search query)
  | searchQuery (query : Query) : client.Offers (client.searchQuery query)
  | top (kind : Kind) (k : Nat) : client.Offers (client.top kind k)
  | get (kind : Kind) (id : String) : client.Offers (client.get kind id)
  | delete (kind : Kind) (id : String) : client.Offers (client.delete kind id)
  | update (id : String) (record : Record) : client.Offers (client.update id record)
  | create (record : Record) : client.Offers (client.create record)
  | createMany (kind : Kind) (records : List Record) : client.Offers (client.createMany kind records)
  | flush (batch : Batch) : client.Offers (client.flush batch)
  | scrape (page : String) : client.Offers (client.scrape page)

/-- Whatever is answered, requests are only made for paths behind a base. -/
def StaysBelow {α : Type} (base : String) (call : Exchange α) : Prop :=
  call.Keeps (fun _ => True) (Request.IsBelow base)

/-! ## Paths -/

theorem IsPath.append {path : String} (begins : IsPath path) (behind : String) : IsPath (path ++ behind) := by
  obtain ⟨first, rest, shape, other⟩ := begins
  exact ⟨first, rest ++ behind.toList, by rw [String.toList_append, shape]; rfl, other⟩

theorem searchPath_isPath : IsPath searchPath := ⟨'a', _, rfl, by decide⟩

theorem scrapePath_isPath : IsPath scrapePath := ⟨'a', _, rfl, by decide⟩

theorem recordPath_isPath (kind : Kind) : IsPath (recordPath kind) := by
  have api : IsPath "/api/" := ⟨'a', _, rfl, by decide⟩
  exact api.append kind.name

theorem collectionPath_isPath (kind : Kind) : IsPath (collectionPath kind) :=
  (recordPath_isPath kind).append "s"

namespace Client

variable {client : Client} {α β : Type} {kind : Kind}

/-! ## Calls -/

theorem send_staysBelow {base : String} {request : Request} (below : request.IsBelow base)
    (read : Outcome → Except Error α) : StaysBelow base (send request read) :=
  ⟨below, fun _ _ => trivial⟩

theorem url_isBelow {path : String} (begins : IsPath path) (method : Method) (name value : String)
    (body : Option Json) : Request.IsBelow client.base ⟨method, client.url path name value, body⟩ :=
  ⟨_, url_eq, ((begins.append "?").append name |>.append "=").append _⟩

theorem search_staysBelow (query : String) : StaysBelow client.base (client.search query) := by
  rw [search]
  split
  · exact trivial
  · exact send_staysBelow (url_isBelow searchPath_isPath ..) _

theorem createMany_staysBelow (kind : Kind) (records : List Record) :
    StaysBelow client.base (client.createMany kind records) := by
  rw [createMany]
  split
  · exact trivial
  · exact send_staysBelow ⟨_, rfl, collectionPath_isPath kind⟩ _

/-- Every call of a client stays below its base. -/
theorem Offers.staysBelow {call : Exchange α} (offered : client.Offers call) : StaysBelow client.base call := by
  cases offered with
  | search query => exact search_staysBelow query
  | searchQuery query => exact search_staysBelow query.compile
  | top kind k => exact Keeps.bind (search_staysBelow _) fun _ => trivial
  | get kind id => exact send_staysBelow (url_isBelow (recordPath_isPath kind) ..) _
  | delete kind id => exact send_staysBelow (url_isBelow (recordPath_isPath kind) ..) _
  | update id record => exact send_staysBelow (url_isBelow (recordPath_isPath record.kind) ..) _
  | create record =>
    rw [Client.create]
    split
    · exact trivial
    · exact send_staysBelow ⟨_, rfl, recordPath_isPath record.kind⟩ _
  | createMany kind records => exact createMany_staysBelow kind records
  | flush batch =>
    refine Keeps.bind (createMany_staysBelow _ _) fun result => ?_
    cases result <;> exact trivial
  | scrape page => exact send_staysBelow (url_isBelow scrapePath_isPath ..) _

/-- **The base URL over any run.** No value of the environment's variable is refused, and it counts as a first
candidate. Whatever settings a program finds and whatever candidates it is then given, its base URL is not empty
and has no slash at its end; it is the form of the last candidate that is not blank, or as it was in the beginning if
there is none, and nothing else in the settings has changed. A client keeps it as it is, and every request of a call
is for that text and a path behind it that begins with one slash. -/
theorem base_url_of_run :
    (∀ environment, Settings.ofEnvironment environment =
      (Settings.ofEnvironment { environment with catalogUrl := none }).map fun settings => { settings with
        catalogUrl := (Settings.standard.withCatalogUrls environment.catalogUrl.toList).catalogUrl }) ∧
    ∀ start, Settings.IsInitial start → ∀ candidates,
      let settings := start.withCatalogUrls candidates
      let client := ofSettings settings
      Settings.IsBase settings.catalogUrl ∧
        settings = { start with catalogUrl :=
          (Settings.lastGiven? candidates).elim start.catalogUrl fun last => Settings.normalizeUrl last "" } ∧
        client.base = settings.catalogUrl ∧
        ∀ (α : Type) (call : Exchange α), client.Offers call → StaysBelow settings.catalogUrl call := by
  refine ⟨Settings.ofEnvironment_eq, fun start initial candidates => ?_⟩
  intro settings client
  have base : Settings.IsBase settings.catalogUrl := Settings.withCatalogUrls_isBase initial.isBase candidates
  have kept : client.base = settings.catalogUrl := base.stripSlashes_eq
  refine ⟨base, Settings.withCatalogUrls_eq start candidates, kept, fun α call offered => ?_⟩
  rw [← kept]
  exact offered.staysBelow

/-- A URL from the environment gives way to a later one, and that one stays when blank ones follow. -/
theorem base_url_of_run_replaced :
    ∃ start, Settings.ofEnvironment ⟨some "https://shelf", none, none⟩ = .ok start ∧ Settings.IsInitial start ∧
      let client := ofSettings (start.withCatalogUrls ["", "10.0.0.2:5000//", " "])
      client.base = "http://10.0.0.2:5000" ∧ client.Offers (client.scrape "page") ∧
        StaysBelow "http://10.0.0.2:5000" (client.scrape "page") := by
  have stated : Settings.ofEnvironment ⟨some "https://shelf", none, none⟩ = .ok _ := rfl
  have initial := Settings.IsInitial.environment stated
  refine ⟨_, stated, initial, ?_⟩
  intro client
  obtain ⟨-, settled, kept, below⟩ :=
    base_url_of_run.2 _ initial ["", "10.0.0.2:5000//", " "]
  have url : client.base = "http://10.0.0.2:5000" := by
    refine kept.trans ((congrArg Settings.catalogUrl settled).trans ?_)
    decide +kernel
  have offered : client.Offers (client.scrape "page") := .scrape "page"
  refine ⟨url, offered, ?_⟩
  rw [← url, kept]
  exact below _ _ offered

end Client
end BookCatalog.Service
