import BookCatalog.Proofs.Command.Session
import BookCatalog.Proofs.Command.Validity
import BookCatalog.Proofs.Service.Call
import BookCatalog.Proofs.Service.Outcome

/-!
The ways in which a command can go. It loads a file at most while it checks what it is given, and if it is
not valid, that is all it does. A valid command sends one request, and what it does next hangs on the
outcome alone, and on whether a chart could be written.
-/
namespace BookCatalog.Command

open Service Interaction Session

/-- What a command prints, as a document and as text. -/
structure Rendering where
  document : Json
  text : String

/-- The line that is printed, in the form that the command line asks for. -/
def Rendering.line (rendering : Rendering) (json : Bool) : String :=
  if json then rendering.document.pretty else rendering.text

/-- A reply to a change: its status and its body, or its status and what its body says. -/
def Rendering.ofReply (reply : Reply) : Rendering where
  document := .object [("status", .ofNat reply.status), ("body", reply.body)]
  text := "[" ++ toString reply.status ++ "] " ++ said reply.body

/-- A record: the object of its attributes, or a line for each of them in vocabulary order. -/
def Rendering.ofRecord (record : Record) : Rendering where
  document := .object record.attributes
  text := "\n".intercalate (record.entries.map fun entry => entry.1 ++ ": " ++ entry.2.plain)

/-- The records that were found: a list of their objects, or their number and each of them behind an empty
line. -/
def Rendering.ofRecords (records : List Record) : Rendering where
  document := .array (records.map fun record => .object record.attributes)
  text :=
    if records.isEmpty then "No matching records."
    else
      toString records.length ++ " record(s)\n" ++
        String.join (records.map fun record => "\n" ++ (ofRecord record).text ++ "\n")

/-- A ranking: a list of identifiers and scores, or a numbered row for each of them. -/
def Rendering.ofRanking (entries : List (Ranking.Entry Float)) : Rendering where
  document := .array (entries.map fun entry =>
    .object [("identifier", .text entry.identifier), ("score", .ofFloat entry.score)])
  text :=
    if entries.isEmpty then "Nothing to rank."
    else
      "\n".intercalate (entries.zipIdx.map fun ranked =>
        Ranking.row (Ranking.columnWidth entries) ranked.2 ranked.1)

/-- Whether a command changes something at the service. The others read. -/
def changes : Command → Bool
  | .delete .. | .update .. | .create .. | .createMany .. | .scrape _ => true
  | .get .. | .search _ | .top .. => false

/-- Where the chart of a command is to be written, if there is one. -/
def chart? : Command → Option String
  | .top _ _ svg => svg
  | _ => none

/-- What a command has to show for an outcome. -/
def shows (topK : Nat) : Command → Outcome → Except Error Rendering
  | .get kind _, outcome => (outcome.document >>= Record.ofJson kind).map Rendering.ofRecord
  | .search wanted, outcome => (Client.found wanted.kind outcome).map Rendering.ofRecords
  | .top kind count _, outcome =>
    let ranked := (Client.found kind outcome).map fun records =>
      Ranking.top records scoreAttribute (count.getD topK)
    ranked.map Rendering.ofRanking
  | .delete .., outcome | .update .., outcome | .create .., outcome | .createMany .., outcome
  | .scrape _, outcome => outcome.reply.map Rendering.ofReply

/-- How a command goes on behind its request. -/
inductive Concludes (json : Bool) (topK : Nat) (command : Command) :
    Outcome → List Occurrence → Except Failure Unit → Prop where
  | failed {outcome : Outcome} {error : Error} (nothing : command.shows topK outcome = .error error) :
      Concludes json topK command outcome [] (.error (.catalog error))
  | changed {status : Nat} {body : ByteArray} {rendering : Rendering} (changing : command.changes = true)
      (shown : command.shows topK (.answered status body) = .ok rendering) :
      Concludes json topK command (.answered status body) [⟨.print (rendering.line json), ()⟩]
        (if isSuccess status then .ok () else .error (.rejected status))
  | read {outcome : Outcome} {rendering : Rendering} (reading : command.changes = false)
      (shown : command.shows topK outcome = .ok rendering) (plain : command.chart? = none) :
      Concludes json topK command outcome [⟨.print (rendering.line json), ()⟩] (.ok ())
  | charted {outcome : Outcome} {rendering : Rendering} {path content : String}
      (reading : command.changes = false) (shown : command.shows topK outcome = .ok rendering)
      (asked : command.chart? = some path) :
      Concludes json topK command outcome
        [⟨.store path content, true⟩, ⟨.print (rendering.line json), ()⟩] (.ok ())
  | unwritable {outcome : Outcome} {rendering : Rendering} {path content : String}
      (reading : command.changes = false) (shown : command.shows topK outcome = .ok rendering)
      (asked : command.chart? = some path) :
      Concludes json topK command outcome [⟨.store path content, false⟩] (.error (.unwritable path))

/-- A request, and what the command makes of its outcome. -/
inductive Proceeds (json : Bool) (topK : Nat) (command : Command) :
    List Occurrence → Except Failure Unit → Prop where
  | send {request : Request} {outcome : Outcome} {events : List Occurrence} {result : Except Failure Unit}
      (concludes : Concludes json topK command outcome events result) :
      Proceeds json topK command (⟨.send request, outcome⟩ :: events) result

/-- The looks that a command takes at files, which all come before its request. -/
def loads (files : String → Option String) : Command → List Occurrence
  | .createMany _ file => [⟨.load file, files file⟩]
  | _ => []

/-- The ways in which a command can go: it is not valid and sends nothing, or it is and proceeds. -/
inductive Course (files : String → Option String) (json : Bool) (topK : Nat) (command : Command) :
    List Occurrence → Except Failure Unit → Prop where
  | refused {failure : Failure} (invalid : ¬ command.IsValid files) :
      Course files json topK command (command.loads files) (.error failure)
  | sent {events : List Occurrence} {result : Except Failure Unit} (valid : command.IsValid files)
      (proceeds : Proceeds json topK command events result) :
      Course files json topK command (command.loads files ++ events) result

/-- Files were read as they are. -/
def Told (files : String → Option String) (events : List Occurrence) : Prop :=
  ∀ path content, ⟨.load path, content⟩ ∈ events → content = files path

variable {json : Bool} {topK : Nat} {events : List Occurrence} {result : Except Failure Unit}
  {command : Command} {outcome : Outcome}

theorem goes_emit {document : Json} {text : String} :
    Goes (emit json document text) events result ↔
      events = [⟨.print (Rendering.line ⟨document, text⟩ json), ()⟩] ∧ result = .ok () := by
  refine goes_effect.trans ?_
  constructor
  · rintro ⟨⟨⟩, rfl, rfl⟩
    exact ⟨rfl, rfl⟩
  · rintro ⟨rfl, rfl⟩
    exact ⟨(), rfl, rfl⟩

/-- The program's own words for a reply are those of its rendering. -/
theorem Rendering.ofReply_eq (reply : Reply) : Rendering.ofReply reply = ⟨reply.toJson, reply.listing⟩ := by
  rw [Reply.listing, Reply.message, describe_eq_said]
  rfl

/-- A reply is printed whatever it says, and then its status decides. -/
theorem emitReply_goes {reply : Reply} (goes : Goes (emitReply json reply) events result) :
    events = [⟨.print ((Rendering.ofReply reply).line json), ()⟩] ∧
      result = if isSuccess reply.status then .ok () else .error (.rejected reply.status) := by
  rw [Rendering.ofReply_eq]
  obtain ⟨⟨⟩, behind, rfl, judged⟩ := goes_effect_bind.mp goes
  unfold Reply.isSuccess at judged
  cases success : isSuccess reply.status with
  | true =>
    rw [success] at judged
    obtain ⟨rfl, rfl⟩ := goes_pure.mp judged
    exact ⟨rfl, rfl⟩
  | false =>
    rw [success] at judged
    obtain ⟨rfl, rfl⟩ := goes_throw.mp judged
    exact ⟨rfl, rfl⟩

theorem writeChart_goes {kind : Kind} {entries : List (Ranking.Entry Float)} {path : String}
    (goes : Goes (writeChart kind entries path) events result) :
    ∃ content, (events = [⟨.store path content, true⟩] ∧ result = .ok ()) ∨
      (events = [⟨.store path content, false⟩] ∧ result = .error (.unwritable path)) := by
  obtain ⟨written, behind, rfl, rest⟩ := goes_effect_bind.mp goes
  cases written with
  | true =>
    obtain ⟨rfl, rfl⟩ := goes_pure.mp rest
    exact ⟨_, .inl ⟨rfl, rfl⟩⟩
  | false =>
    obtain ⟨rfl, rfl⟩ := goes_throw.mp rest
    exact ⟨_, .inr ⟨rfl, rfl⟩⟩

theorem loadRecords_goes {kind : Kind} {path : String} {result : Except Failure (List Record)}
    (goes : Goes (loadRecords kind path) events result) :
    (events = [⟨.load path, none⟩] ∧ result = .error (.unreadable path)) ∨
      ∃ content, events = [⟨.load path, some content⟩] ∧ result = readRecords kind content := by
  obtain ⟨content, behind, rfl, rest⟩ := goes_effect_bind.mp goes
  cases content with
  | none =>
    obtain ⟨rfl, rfl⟩ := goes_throw.mp rest
    exact .inl ⟨rfl, rfl⟩
  | some content =>
    obtain ⟨rfl, rfl⟩ := goes_ofExcept.mp rest
    exact .inr ⟨content, rfl, rfl⟩

/-! ## From the request on -/

theorem shows_of_changes (changing : command.changes = true) :
    command.shows topK outcome = outcome.reply.map Rendering.ofReply := by
  cases command with
  | get | search | top => cases changing
  | delete | update | create | createMany | scrape => rfl

/-- Every changing command goes on alike. -/
theorem change_proceeds {request : Request} (changing : command.changes = true)
    (goes : Goes (do emitReply json (← call (Client.send request Outcome.reply))) events result) :
    Proceeds json topK command events result := by
  obtain ⟨outcome, behind, rfl, ⟨error, failed, rfl, rfl⟩ | ⟨reply, replied, rest⟩⟩ :=
    goes_call_bind.mp goes
  · apply Proceeds.send
    apply Concludes.failed
    rw [shows_of_changes changing, failed]
    rfl
  · obtain ⟨rfl, rfl⟩ := emitReply_goes rest
    cases outcome with
    | unanswered => cases replied
    | answered status body =>
      cases replied
      apply Proceeds.send
      apply Concludes.changed changing
      rw [shows_of_changes changing]
      rfl

/-- So does every reading command without a chart, each with its own way to read and to show. -/
theorem read_proceeds {α : Type} {request : Request} {read : Outcome → Except Error α} (document : α → Json)
    (text : α → String) (reading : command.changes = false) (plain : command.chart? = none)
    (shows : ∀ outcome, command.shows topK outcome =
      (read outcome).map fun data => ⟨document data, text data⟩)
    (goes : Goes (do
      let data ← call (Client.send request read)
      emit json (document data) (text data)) events result) :
    Proceeds json topK command events result := by
  obtain ⟨outcome, behind, rfl, ⟨error, failed, rfl, rfl⟩ | ⟨data, done, rest⟩⟩ :=
    goes_call_bind.mp goes
  · apply Proceeds.send
    apply Concludes.failed
    rw [shows, failed]
    rfl
  · obtain ⟨rfl, rfl⟩ := goes_emit.mp rest
    apply Proceeds.send
    apply Concludes.read reading _ plain
    rw [shows, done]
    rfl

variable {files : String → Option String} {client : Client} {settings : Settings}

/-- A ranking writes its chart, if there is to be one, before it prints. -/
theorem top_proceeds {kind : Kind} {count : Option Nat} {svg : Option String}
    (goes : Goes (run client settings json (.top kind count svg)) events result) :
    Proceeds json settings.topK (.top kind count svg) events result := by
  simp only [run, Client.top_eq] at goes
  obtain ⟨outcome, behind, rfl, ⟨error, failed, rfl, rfl⟩ | ⟨entries, done, rest⟩⟩ :=
    goes_call_bind.mp goes
  · apply Proceeds.send
    apply Concludes.failed
    simp only [shows, failed]
    rfl
  · apply Proceeds.send
    have shown : shows settings.topK (.top kind count svg) outcome =
        .ok (.ofRanking entries) := by
      simp only [shows, done]
      rfl
    cases svg with
    | none =>
      obtain ⟨rfl, rfl⟩ := goes_emit.mp rest
      exact .read rfl shown rfl
    | some path =>
      rcases goes_bind.mp rest with ⟨failure, wrote, rfl⟩ | ⟨before, ⟨⟩, behind, rfl, wrote, printed⟩
      · obtain ⟨content, ⟨rfl, wrong⟩ | ⟨rfl, failed⟩⟩ := writeChart_goes wrote
        · cases wrong
        · cases failed
          exact .unwritable rfl shown rfl
      · obtain ⟨content, ⟨rfl, -⟩ | ⟨rfl, wrong⟩⟩ := writeChart_goes wrote
        · obtain ⟨rfl, rfl⟩ := goes_emit.mp printed
          exact .charted rfl shown rfl
        · cases wrong

/-! ## Whole commands -/

theorem search_course {wanted : Search}
    (goes : Goes (run client settings json (.search wanted)) events result) :
    Course files json settings.topK (.search wanted) events result := by
  rcases goes_ofExcept_bind.mp goes with ⟨failure, failed, rfl, rfl⟩ | ⟨query, asked, rest⟩
  · apply Course.refused
    intro valid
    obtain ⟨query, asked⟩ := Search.exists_query valid
    exact not_exists_ok failed ⟨query, mapError_eq_ok_iff.mpr asked⟩
  · obtain ⟨valid, own⟩ := Search.isValid_of_query (mapError_eq_ok_iff.mp asked)
    rw [Client.searchQuery_eq, own] at rest
    exact .sent valid <| read_proceeds (fun records => .array (records.map Record.toJson)) Record.listingOf
      rfl rfl (fun _ => rfl) rest

theorem update_course {kind : Kind} {id : String} {assignments : List String}
    (goes : Goes (run client settings json (.update kind id assignments)) events result) :
    Course files json settings.topK (.update kind id assignments) events result := by
  rcases goes_ofExcept_bind.mp goes with ⟨failure, failed, rfl, rfl⟩ | ⟨record, read, rest⟩
  · apply Course.refused
    exact fun valid => not_exists_ok failed (exists_readAssignments_iff.mpr valid)
  · exact .sent (exists_readAssignments_iff.mp ⟨record, read⟩) (change_proceeds rfl rest)

/-- A record to be created is checked twice: its assignments make it up, and then it must have an
identifier. -/
theorem create_course {kind : Kind} {assignments : List String}
    (goes : Goes (run client settings json (.create kind assignments)) events result) :
    Course files json settings.topK (.create kind assignments) events result := by
  rcases goes_ofExcept_bind.mp goes with ⟨failure, failed, rfl, rfl⟩ | ⟨record, read, rest⟩
  · apply Course.refused
    exact fun valid => not_exists_ok failed (exists_readAssignments_iff.mpr valid.1)
  have named := isSome_identifier?_of_readAssignments read
  cases identified : record.identifier?.isSome with
  | true =>
    rw [Client.create_of_identified identified] at rest
    exact .sent ⟨exists_readAssignments_iff.mp ⟨record, read⟩, named.mp identified⟩
      (change_proceeds rfl rest)
  | false =>
    rw [Client.create_of_unidentified identified] at rest
    obtain ⟨rfl, rfl⟩ := goes_throw.mp rest
    apply Course.refused
    intro valid
    rw [named.mpr valid.2] at identified
    cases identified

/-- Whatever is read from the file, the command goes as it should with a file that holds that. -/
theorem createMany_course {kind : Kind} {file : String}
    (goes : Goes (run client settings json (.createMany kind file)) events result) :
    ∃ content : Option String,
      Course (fun _ => content) json settings.topK (.createMany kind file) events result := by
  rcases goes_bind.mp goes with ⟨failure, loaded, rfl⟩ | ⟨before, records, behind, rfl, loaded, rest⟩
  · rcases loadRecords_goes loaded with ⟨rfl, -⟩ | ⟨content, rfl, failed⟩
    · refine ⟨none, .refused ?_⟩
      rintro ⟨content, found, -⟩
      cases found
    · refine ⟨some content, .refused ?_⟩
      rintro ⟨_, found, listed⟩
      cases found
      exact not_exists_ok failed.symm (exists_readRecords listed)
  · rcases loadRecords_goes loaded with ⟨rfl, failed⟩ | ⟨content, rfl, done⟩
    · cases failed
    · obtain ⟨listed, same⟩ := readRecords_ok done.symm
      rw [createMany_of_same_kind same] at rest
      exact ⟨some content, .sent ⟨content, rfl, listed⟩ (change_proceeds rfl rest)⟩

/-- Every command takes one of its courses, with some files. -/
theorem run_course (goes : Goes (run client settings json command) events result) :
    ∃ files, Course files json settings.topK command events result := by
  have any : String → Option String := fun _ => none
  cases command with
  | get =>
    exact ⟨any, .sent trivial (read_proceeds Record.toJson Record.listing rfl rfl (fun _ => rfl) goes)⟩
  | delete | scrape => exact ⟨any, .sent trivial (change_proceeds rfl goes)⟩
  | search => exact ⟨any, search_course goes⟩
  | top => exact ⟨any, .sent trivial (top_proceeds goes)⟩
  | update => exact ⟨any, update_course goes⟩
  | create => exact ⟨any, create_course goes⟩
  | createMany =>
    obtain ⟨content, course⟩ := createMany_course goes
    exact ⟨_, course⟩

/-- Those are the files that there are, as far as the command looks at any. -/
theorem Course.of_told {files' : String → Option String}
    (course : Course files' json topK command events result) (told : Told files events) :
    Course files json topK command events result := by
  have looked : ∀ event ∈ command.loads files', event ∈ events := by
    intro event member
    cases course with
    | refused => exact member
    | sent => exact List.mem_append_left _ member
  have same : command.loads files' = command.loads files ∧
      (command.IsValid files' ↔ command.IsValid files) := by
    cases command with
    | createMany kind file =>
      have content := told file (files' file) (looked _ List.mem_cons_self)
      simp only [loads, IsValid, content, and_self]
    | get | delete | search | top | update | create | scrape => exact ⟨rfl, Iff.rfl⟩
  cases course with
  | refused invalid =>
    rw [same.1]
    exact .refused fun valid => invalid (same.2.mpr valid)
  | sent valid proceeds =>
    rw [same.1]
    exact .sent (same.2.mp valid) proceeds

/-- A whole command line takes a course of its command, unless the environment keeps it from starting. -/
theorem execute_course {environment : Environment} {arguments : Arguments}
    (goes : Goes (execute environment arguments) events result) :
    (¬ environment.IsValid ∧ events = [] ∧ ∃ failure, result = .error failure) ∨
      environment.IsValid ∧ ∃ settings files, Settings.ofEnvironment environment = .ok settings ∧
        Course files arguments.json settings.topK arguments.command events result := by
  rcases goes_ofExcept_bind.mp goes with ⟨failure, failed, rfl, rfl⟩ | ⟨settings, read, rest⟩
  · refine .inl ⟨fun valid => ?_, rfl, failure, rfl⟩
    obtain ⟨settings, read⟩ := Settings.exists_ofEnvironment valid
    exact not_exists_ok failed ⟨settings, mapError_eq_ok_iff.mpr read⟩
  · have read := mapError_eq_ok_iff.mp read
    have course : ∃ files, Course files arguments.json settings.topK arguments.command events result := by
      -- The URL of the service has no part in what a command shows.
      cases given : arguments.url with
      | none =>
        rw [given] at rest
        exact run_course rest
      | some url =>
        rw [given] at rest
        exact run_course rest
    obtain ⟨files, course⟩ := course
    exact .inr ⟨Settings.isValid_of_ofEnvironment read, settings, files, read, course⟩

end BookCatalog.Command
