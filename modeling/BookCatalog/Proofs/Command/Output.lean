import BookCatalog.Proofs.Command.Course
import BookCatalog.Proofs.Service.Outcome

/-!
What a command prints and whether it succeeds, put beside what came of its request. Both are read off the
course that the command takes, so a line that is printed always has an answer behind it.
-/
namespace BookCatalog.Command

open Service Interaction Session

variable {files : String → Option String} {json : Bool} {topK : Nat} {command : Command}
  {events : List Occurrence} {result : Except Failure Unit} {outcome : Outcome}

/-- Without an answer there is nothing to show. -/
theorem shows_unanswered : command.shows topK .unanswered = .error (.network .transport) := by
  cases command <;> rfl

/-- What is shown by a changing command is the reply, whatever it says. -/
theorem shows_answered {status : Nat} {body : ByteArray} (changing : command.changes = true) :
    command.shows topK (.answered status body) = .ok (.ofReply ⟨status, lenientBody body⟩) := by
  rw [shows_of_changes changing]
  rfl

namespace Concludes

variable (concludes : Concludes json topK command outcome events result)
include concludes

/-- Nothing is sent behind the request. -/
theorem requests_eq_nil : requests events = [] := by
  cases concludes <;> rfl

theorem of_unanswered (unanswered : outcome = .unanswered) :
    printed events = [] ∧ ∃ failure, result = .error failure := by
  subst unanswered
  cases concludes with
  | failed => exact ⟨rfl, _, rfl⟩
  | read _ shown | charted _ shown | unwritable _ shown =>
    rw [shows_unanswered] at shown
    cases shown

/-- A change that was answered is shown, and its status is the verdict. -/
theorem of_change {status : Nat} {body : ByteArray} (changing : command.changes = true)
    (answered : outcome = .answered status body) :
    printed events = [(Rendering.ofReply ⟨status, lenientBody body⟩).line json] ∧
      result = if isSuccess status then .ok () else .error (.rejected status) := by
  subst answered
  cases concludes with
  | failed nothing =>
    rw [shows_answered changing] at nothing
    cases nothing
  | changed _ shown =>
    rw [shows_answered changing] at shown
    cases shown
    exact ⟨rfl, rfl⟩
  | read reading | charted reading | unwritable reading =>
    rw [changing] at reading
    cases reading

/-- A read prints what it has to show if it succeeds, and nothing if it fails. -/
theorem of_read (reading : command.changes = false) :
    (result = .ok () ∧ ∃ rendering, command.shows topK outcome = .ok rendering ∧
        printed events = [rendering.line json]) ∨
      (∃ failure, result = .error failure) ∧ printed events = [] := by
  cases concludes with
  | failed => exact .inr ⟨⟨_, rfl⟩, rfl⟩
  | changed changing =>
    rw [reading] at changing
    cases changing
  | read _ shown => exact .inl ⟨rfl, _, shown, rfl⟩
  | charted _ shown => exact .inl ⟨rfl, _, shown, rfl⟩
  | unwritable => exact .inr ⟨⟨_, rfl⟩, rfl⟩

/-- A read that has something to show fails for a chart that cannot be written, and for nothing else. -/
theorem read_succeeds {rendering : Rendering} (reading : command.changes = false)
    (shown : command.shows topK outcome = .ok rendering)
    (written : ∀ path content, ⟨.store path content, false⟩ ∉ events) : result = .ok () := by
  cases concludes with
  | failed nothing =>
    rw [shown] at nothing
    cases nothing
  | changed changing =>
    rw [reading] at changing
    cases changing
  | read | charted => rfl
  | unwritable => exact absurd List.mem_cons_self (written _ _)

/-- A chart that cannot be written keeps its ranking from being printed. -/
theorem of_unwritten {path content : String} (unwritten : ⟨.store path content, false⟩ ∈ events) :
    printed events = [] ∧ result = .error (.unwritable path) := by
  cases concludes with
  | failed => cases unwritten
  | changed | read => cases List.mem_singleton.mp unwritten
  | charted =>
    rcases List.mem_cons.mp unwritten with written | printed
    · cases written
    · cases List.mem_singleton.mp printed
  | unwritable =>
    cases List.mem_singleton.mp unwritten
    exact ⟨rfl, rfl⟩

end Concludes

/-! ## Whole courses -/

theorem requests_loads : requests (command.loads files) = [] := by
  cases command <;> rfl

theorem printed_loads : printed (command.loads files) = [] := by
  cases command <;> rfl

/-- A course that sends anything sends the one request with its outcome. -/
theorem requests_sent {request : Request} {behind : List Occurrence}
    (concludes : Concludes json topK command outcome behind result) :
    requests (command.loads files ++ ⟨.send request, outcome⟩ :: behind) = [(request, outcome)] := by
  rw [requests_append, requests_loads, List.nil_append]
  exact congrArg _ concludes.requests_eq_nil

theorem printed_sent {request : Request} {behind : List Occurrence} :
    printed (command.loads files ++ ⟨.send request, outcome⟩ :: behind) = printed behind := by
  rw [printed_append, printed_loads]
  rfl

theorem store_not_loaded {path content : String} {written : Bool} :
    ⟨.store path content, written⟩ ∉ command.loads files := by
  intro stored
  cases command with
  | createMany => cases List.mem_singleton.mp stored
  | get | delete | search | top | update | create | scrape => cases stored

namespace Course

variable (course : Course files json topK command events result)
include course

theorem of_change {request : Request} {status : Nat} {body : ByteArray} (changing : command.changes = true)
    (sent : ⟨.send request, .answered status body⟩ ∈ events) :
    printed events = [(Rendering.ofReply ⟨status, lenientBody body⟩).line json] ∧
      result = if isSuccess status then .ok () else .error (.rejected status) := by
  have answered := mem_requests sent
  cases course with
  | refused =>
    rw [requests_loads] at answered
    cases answered
  | sent valid proceeds =>
    obtain ⟨concludes⟩ := proceeds
    rw [requests_sent concludes] at answered
    cases List.mem_singleton.mp answered
    rw [printed_sent]
    exact concludes.of_change changing rfl

theorem of_read (reading : command.changes = false) :
    (result = .ok () ∧ ∃ request outcome rendering, ⟨.send request, outcome⟩ ∈ events ∧
        command.shows topK outcome = .ok rendering ∧ printed events = [rendering.line json]) ∨
      (∃ failure, result = .error failure) ∧ printed events = [] := by
  cases course with
  | refused => exact .inr ⟨⟨_, rfl⟩, printed_loads⟩
  | sent valid proceeds =>
    obtain ⟨concludes⟩ := proceeds
    rw [printed_sent]
    refine (concludes.of_read reading).imp_left ?_
    rintro ⟨done, rendering, shown, line⟩
    exact ⟨done, _, _, rendering, List.mem_append_right _ List.mem_cons_self, shown, line⟩

theorem read_succeeds {request : Request} {rendering : Rendering} (reading : command.changes = false)
    (sent : ⟨.send request, outcome⟩ ∈ events) (shown : command.shows topK outcome = .ok rendering)
    (written : ∀ path content, ⟨.store path content, false⟩ ∉ events) : result = .ok () := by
  have asked := mem_requests sent
  cases course with
  | refused =>
    rw [requests_loads] at asked
    cases asked
  | sent valid proceeds =>
    obtain ⟨concludes⟩ := proceeds
    rw [requests_sent concludes] at asked
    cases List.mem_singleton.mp asked
    refine concludes.read_succeeds reading shown fun path content unwritten => written path content ?_
    exact List.mem_append_right _ (List.mem_cons_of_mem _ unwritten)

theorem of_unwritten {path content : String} (unwritten : ⟨.store path content, false⟩ ∈ events) :
    printed events = [] ∧ result = .error (.unwritable path) := by
  cases course with
  | refused => exact absurd unwritten store_not_loaded
  | sent valid proceeds =>
    obtain ⟨concludes⟩ := proceeds
    rw [printed_sent]
    rcases List.mem_append.mp unwritten with early | late
    · exact absurd early store_not_loaded
    · rcases List.mem_cons.mp late with sent | behind
      · cases sent
      · exact concludes.of_unwritten behind

theorem of_unanswered
    (unanswered : ∀ request status body, ⟨.send request, .answered status body⟩ ∉ events) :
    printed events = [] ∧ ∃ failure, result = .error failure := by
  cases course with
  | refused => exact ⟨printed_loads, _, rfl⟩
  | sent valid proceeds =>
    obtain ⟨concludes⟩ := proceeds
    rw [printed_sent]
    apply concludes.of_unanswered
    rename_i request outcome behind
    cases outcome with
    | unanswered => rfl
    | answered status body =>
      exact absurd (List.mem_append_right _ List.mem_cons_self) (unanswered request status body)

end Course

variable {environment : Environment} {arguments : Arguments}

/-- The line for an answered change: an indented object of the status and the document of the body, or the
status and what the body says. -/
theorem line_ofReply {status : Nat} {body : ByteArray} :
    (Rendering.ofReply ⟨status, lenientBody body⟩).line json =
      if json then
        (Json.object [("status", .ofNat status),
          ("body", (Json.readBytes? body).getD (.object [("error", .text "invalid json")]))]).pretty
      else "[" ++ toString status ++ "] " ++ described body := by
  rw [← said_lenientBody]
  rfl

/-- **What a command prints agrees with how it ends.** A changing command whose request was answered prints
the reply and nothing else, as an indented object of its status and its body or as its status and what the
body says, and succeeds exactly if the status says so; if it fails, it is because of that status. A reading
command prints what it shows for the outcome if it succeeds, and nothing if it fails, not
even for a chart that could not be written; and it succeeds if it has something to show and its chart was
written. Without an answer nothing is printed and no command succeeds. -/
theorem output_agrees_with_outcome (goes : Goes (execute environment arguments) events result) :
    (arguments.command.changes = true → ∀ request status body,
      ⟨.send request, .answered status body⟩ ∈ events →
      printed events = [
          if arguments.json then
            (Json.object [("status", .ofNat status),
              ("body", (Json.readBytes? body).getD (.object [("error", .text "invalid json")]))]).pretty
          else "[" ++ toString status ++ "] " ++ described body] ∧
        (result = .ok () ↔ 200 ≤ status ∧ status ≤ 299) ∧
        ∀ failure, result = .error failure → failure = .rejected status ∧
          failure.message = "service answered with status " ++ toString status) ∧
    (arguments.command.changes = false →
      (result = .ok () → ∃ settings request status body rendering,
        Settings.ofEnvironment environment = .ok settings ∧
        ⟨.send request, .answered status body⟩ ∈ events ∧
        arguments.command.shows settings.topK (.answered status body) = .ok rendering ∧
        printed events = [rendering.line arguments.json]) ∧
      ((∃ failure, result = .error failure) → printed events = []) ∧
      ∀ settings request outcome rendering, Settings.ofEnvironment environment = .ok settings →
        ⟨.send request, outcome⟩ ∈ events →
        arguments.command.shows settings.topK outcome = .ok rendering →
        (∀ path content, ⟨.store path content, false⟩ ∉ events) → result = .ok ()) ∧
    (∀ path content, ⟨.store path content, false⟩ ∈ events →
      printed events = [] ∧ result = .error (.unwritable path)) ∧
    ((∀ request status body, ⟨.send request, .answered status body⟩ ∉ events) →
      printed events = [] ∧ ∃ failure, result = .error failure) := by
  rcases execute_course goes with ⟨-, rfl, failure, rfl⟩ | ⟨-, settings, files, read, course⟩
  · simp [printed]
  refine ⟨?_, ?_, ?_, course.of_unanswered⟩
  · intro changing request status body sent
    obtain ⟨line, rfl⟩ := course.of_change changing sent
    rw [line_ofReply] at line
    have success : 200 ≤ status ∧ status ≤ 299 ↔ isSuccess status = true := by
      rw [isSuccess_iff]
      omega
    rw [success]
    cases isSuccess status with
    | true => exact ⟨line, iff_of_true rfl rfl, fun failure failed => by cases failed⟩
    | false =>
      refine ⟨line, iff_of_false (fun done => by cases done) Bool.false_ne_true, fun failure failed => ?_⟩
      cases failed
      exact ⟨rfl, rfl⟩
  · intro reading
    rw [← and_assoc]
    refine ⟨?_, ?succeeds⟩
    case succeeds =>
      intro settings' request outcome rendering read' sent shown written
      cases read.symm.trans read'
      exact course.read_succeeds reading sent shown written
    rcases course.of_read reading with
      ⟨rfl, request, outcome, rendering, sent, shown, line⟩ | ⟨⟨failure, rfl⟩, silent⟩
    · cases outcome with
      | unanswered =>
        rw [shows_unanswered] at shown
        cases shown
      | answered status body =>
        refine ⟨fun _ => ⟨settings, request, status, body, rendering, read, sent, shown, line⟩, ?_⟩
        rintro ⟨failure, failed⟩
        cases failed
    · exact ⟨fun done => (by cases done), fun _ => silent⟩
  · intro path content unwritten
    exact course.of_unwritten unwritten

/-- A record that the service cannot delete: its answer is printed, as text or as a document, and the command
fails. -/
theorem output_agrees_with_outcome_unavailable :
    let deletion (json : Bool) := execute ⟨none, none, none⟩ ⟨none, json, .delete .book "7"⟩
    let answered (events : List Occurrence) := ∃ request, ⟨.send request,
      .answered 503 "\x7b\"retry\":30,\"error\":\"down\"\x7d".toUTF8⟩ ∈ events
    (∃ events, Goes (deletion false) events (.error (.rejected 503)) ∧ answered events ∧
      printed events = ["[503] error: down; retry: 30"]) ∧
    ∃ events, Goes (deletion true) events (.error (.rejected 503)) ∧ answered events ∧
      printed events = ["\x7b\n  \"status\": 503,\n  \"body\": \x7b\n" ++
        "    \"error\": \"down\",\n    \"retry\": 30\n  \x7d\n\x7d"] := by
  intro deletion answered
  have rest (json : Bool) (body : ByteArray) :
      Goes (emitReply json ⟨503, lenientBody body⟩) [⟨.print _, ()⟩] (.error (.rejected 503)) :=
    goes_effect_bind.mpr ⟨(), [], rfl, goes_throw.mpr ⟨rfl, rfl⟩⟩
  have goes (json : Bool) (body : ByteArray) : Goes (deletion json) _ _ :=
    runs_ask.mpr ⟨.answered 503 body, _, rfl, rest json body⟩
  have shown (json : Bool) (body : ByteArray) :=
    ((output_agrees_with_outcome (goes json body)).1 rfl _ 503 body List.mem_cons_self).1
  exact ⟨⟨_, goes false _, ⟨_, List.mem_cons_self⟩, (shown false _).trans (by decide +kernel)⟩,
    ⟨_, goes true _, ⟨_, List.mem_cons_self⟩, (shown true _).trans (by decide +kernel)⟩⟩

end BookCatalog.Command
