import BookCatalog.Proofs.Query.Compile
import BookCatalog.Proofs.Text.Percent
import BookCatalog.Service.Client

/-!
What a request tells the service in its URL. The path behind the base is one of a few fixed ones, and a
text of a user stands behind it as the value of one parameter, from which a server gets it back as it
was.
-/
namespace BookCatalog.Service

open Text.Percent

/-- What a server makes of what stands in a URL behind the base: the path in front of the first question
mark, and the parameters behind it. -/
def takeApart (target : String) : Option (String × List (String × Option String)) :=
  (Text.splitOnce '?' target).map fun (path, query) => (path, parameters query)

example : takeApart "/api/book?id=a%26b+%C3%A9" = some ("/api/book", [("id", some "a&b é")]) := by
  decide +kernel

/-- A request for a path below the base of a service carries a text in a parameter. Its URL has nothing
else behind the base, the written text is inert, and a server finds the text as it was. -/
structure Request.Carries (request : Request) (client : Client) (path name text : String) : Prop where
  url_eq : request.url = client.base ++ (path ++ "?" ++ name ++ "=" ++ Text.Percent.encode text)
  inert : (Text.Percent.encode text).toList.all isInert = true
  found : takeApart (path ++ "?" ++ name ++ "=" ++ Text.Percent.encode text) =
    some (path, [(name, some text)])

/-- A call sends one request, which carries a text, and gives what it reads from the outcome. -/
def Client.Sends {α : Type} (client : Client) (call : Exchange α) (path name text : String) : Prop :=
  ∃ (request : Request) (read : Outcome → α),
    call = .ask request (fun outcome => .done (read outcome)) ∧ request.Carries client path name text

variable {client : Client} {path name text : String}

theorem takeApart_encode (plain : '?' ∉ path.toList) (inert : name.toList.all isInert = true)
    (text : String) :
    takeApart (path ++ "?" ++ name ++ "=" ++ Text.Percent.encode text) =
      some (path, [(name, some text)]) := by
  have shape : (path ++ "?" ++ name ++ "=" ++ Text.Percent.encode text).toList =
      path.toList ++ '?' :: (name ++ "=" ++ Text.Percent.encode text).toList := by simp
  have split := Text.splitChars_append plain (name ++ "=" ++ Text.Percent.encode text).toList
  rw [takeApart, Text.splitOnce, shape, split]
  simp only [Option.map_some, String.ofList_toList, parameters_encode inert]

namespace Client

theorem url_eq : client.url path name text =
    client.base ++ (path ++ "?" ++ name ++ "=" ++ Text.Percent.encode text) := by
  simp only [url, String.append_assoc]

theorem carries_url (plain : '?' ∉ path.toList) (inert : name.toList.all isInert = true)
    (method : Method) (body : Option Json) :
    Request.Carries ⟨method, client.url path name text, body⟩ client path name text where
  url_eq := url_eq
  inert := encode_inert text
  found := takeApart_encode plain inert text

theorem sends_url {α : Type} (plain : '?' ∉ path.toList) (inert : name.toList.all isInert = true)
    (method : Method) (body : Option Json) (read : Outcome → Except Error α) :
    client.Sends (send ⟨method, client.url path name text, body⟩ read) path name text :=
  ⟨_, read, rfl, carries_url plain inert method body⟩

theorem question_notMem_recordPath (kind : Kind) : '?' ∉ (recordPath kind).toList := by
  cases kind <;> decide

theorem recordPath_injective {kind kind' : Kind} (same : recordPath kind = recordPath kind') :
    kind = kind' := by
  have names : kind.name = kind'.name := by simpa [recordPath, String.append_right_inj] using same
  exact Kind.name_injective names

/-- A record has a URL of its own. -/
theorem recordUrl_injective {kind kind' : Kind} {id id' : String}
    (same : client.recordUrl kind id = client.recordUrl kind' id') : kind = kind' ∧ id = id' := by
  have inert : "id".toList.all isInert = true := by decide
  have found := takeApart_encode (question_notMem_recordPath kind) inert id
  have found' := takeApart_encode (question_notMem_recordPath kind') inert id'
  rw [recordUrl, recordUrl, url_eq, url_eq, String.append_right_inj] at same
  rw [same, found'] at found
  have parts : recordPath kind = recordPath kind' ∧ id = id' := by simpa [eq_comm] using found
  exact ⟨recordPath_injective parts.1, parts.2⟩

/-- **A text of a user is one parameter of the request.** Whatever service is called, the text of an
accepted query, the identifier of a record and the address of a page each travel as the only parameter of
a fixed path, in inert characters, and a server finds the text as it was. So records of different
kinds or identifiers never share a URL. -/
theorem texts_travel_in_one_parameter (client : Client) :
    (∀ query kind, Query.kindOf query = .ok kind →
      client.Sends (client.search query) searchPath "q" query) ∧
    (∀ kind id, client.Sends (client.get kind id) (recordPath kind) "id" id ∧
      client.Sends (client.delete kind id) (recordPath kind) "id" id) ∧
    (∀ id record, client.Sends (client.update id record) (recordPath record.kind) "id" id) ∧
    (∀ page, client.Sends (client.scrape page) scrapePath "attr" page) ∧
    ∀ kind id kind' id', client.recordUrl kind id = client.recordUrl kind' id' →
      kind = kind' ∧ id = id' := by
  have identifier : "id".toList.all isInert = true := by decide
  refine ⟨?_, ?_, ?_, ?_, ?_⟩
  · intro query kind accepted
    rw [search, accepted]
    exact sends_url (by decide) (by decide) ..
  · intro kind id
    have plain := question_notMem_recordPath kind
    exact ⟨sends_url plain identifier .., sends_url plain identifier ..⟩
  · intro id record
    exact sends_url (question_notMem_recordPath record.kind) identifier ..
  · intro page
    exact sends_url (by decide) (by decide) ..
  · intro kind id kind' id' same
    exact recordUrl_injective same

/-- Neither the characters that divide a query string nor an encoded sequence in a text lead a server
astray. -/
theorem texts_travel_in_one_parameter_dividing :
    let client := Client.ofUrl "http://localhost:5000/"
    let query := "book.title:a&q=b#c?d+e %26é"
    Query.kindOf query = .ok .book ∧ client.Sends (client.search query) searchPath "q" query := by
  intro client query
  have parts : Text.splitOnce '.' query = some ("book", "title:a&q=b#c?d+e %26é") := by decide +kernel
  have accepted : Query.kindOf query = .ok .book := by
    rw [Query.kindOf, parts]
    rfl
  exact ⟨accepted, (texts_travel_in_one_parameter client).1 query .book accepted⟩

end Client
end BookCatalog.Service
