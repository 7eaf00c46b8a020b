import BookCatalog.Proofs.Command.Output
import BookCatalog.Proofs.Web.Pending
import BookCatalog.Proofs.Web.Report

/-!
One round trip at most, and none in front of a check. The command line and the web front end check what they
are given in many places, and a request goes out behind the last of them or not at all.
-/
namespace BookCatalog

open Service Interaction

variable {kind : Kind}

/-- A document that has the attribute by which records of a kind are told apart. -/
def Json.IsIdentified (kind : Kind) (document : Json) : Prop :=
  ∃ fields, document = .object fields ∧ (Field.identifier kind).key ∈ Json.Fields.keys fields

theorem Record.isIdentified_iff {record : Record} {body : Json} (read : Record.ofJson kind body = .ok record) :
    body.IsIdentified kind ↔ record.identifier?.isSome = true := by
  rw [Record.isSome_identifier?_iff, Record.kind_of_ofJson read, Record.attributes_of_ofJson read]
  constructor
  · rintro ⟨fields, ⟨⟩, member⟩
    exact member
  · intro member
    exact ⟨_, rfl, member⟩

namespace Web

variable {app : App} {call : Call} {body : Json} {id : String} {record : Record} {past : List Occurrence}
  {rest : Handler Response}

/-! ## Requests of the web front end -/

/-- A request that goes out to the service: not one that only looks at what waits or adds to it, and with a
body or a query that is valid. -/
def Call.GoesOut : Call → Prop
  | .pending _ | .append .. => False
  | .get .. | .delete .. | .top .. | .flush _ | .scrape _ => True
  | .update kind _ body => body.IsRecord kind
  | .create kind body => body.IsRecord kind ∧ body.IsIdentified kind
  | .search parameters => parameters.IsValid

/-- A handler that makes one call, and answers with what comes of it. -/
def IsDirect (handler : Handler Response) : Prop :=
  ∃ (request : Request) (respond : Outcome → Response),
    handler = .ask (.send request) fun outcome => .done (respond outcome)

theorem update_isDirect (read : Record.ofJson kind body = .ok record) : IsDirect (app.update kind id body) := by
  simp only [App.update, read]
  exact ⟨_, _, rfl⟩

theorem update_refused {error : Error} (wrong : Record.ofJson kind body = .error error) :
    app.update kind id body = .done (.ofError error) := by
  simp only [App.update, wrong]
  rfl

theorem create_isDirect (read : Record.ofJson kind body = .ok record)
    (identified : record.identifier?.isSome = true) : IsDirect (app.create kind body) := by
  simp only [App.create, read, Client.create_of_identified identified]
  exact ⟨_, _, rfl⟩

theorem create_refused {error : Error} (wrong : Record.ofJson kind body = .error error) :
    app.create kind body = .done (.ofError error) := by
  simp only [App.create, wrong]
  rfl

/-- A record without an identifier is found out by the call, which then sends nothing. -/
theorem create_unidentified (read : Record.ofJson kind body = .ok record)
    (unidentified : record.identifier?.isSome = false) :
    app.create kind body = .done (.ofError (.missingIdentifier record.kind)) := by
  simp only [App.create, read, Client.create_of_unidentified unidentified]
  rfl

/-- How many calls a request has made: one at most, and one in the end. -/
structure CallsOnce (past : List Occurrence) (rest : Handler Response) : Prop where
  atMost : (outcomesOf past).length ≤ 1
  atEnd : ∀ response, rest = .done response → (outcomesOf past).length = 1

theorem callsOnce_of_direct {handler : Handler Response} (direct : IsDirect handler)
    (left : handler.After past rest) : CallsOnce past rest := by
  obtain ⟨request, respond, rfl⟩ := direct
  rcases Handler.after_send.mp left with ⟨rfl, rfl⟩ | ⟨outcome, later, rfl, answered⟩
  · exact ⟨Nat.zero_le 1, fun response ended => by cases ended⟩
  · obtain ⟨rfl, rfl⟩ := after_done.mp answered
    exact ⟨Nat.le_refl 1, fun response ended => rfl⟩

/-- A flush makes its call between its steps on the state, and none when it puts records back. -/
theorem callsOnce_flush (relied : ∀ event ∈ past, Relies State.Sound event)
    (left : (app.flush kind).After past rest) : CallsOnce past rest := by
  cases flush_stage relied left with
  | waiting | sending => exact ⟨Nat.zero_le 1, fun response ended => by cases ended⟩
  | restoring => exact ⟨Nat.le_refl 1, fun response ended => by cases ended⟩
  | settled | restored => exact ⟨Nat.le_refl 1, fun response ended => rfl⟩

theorem callsOnce_top {count : Option Nat} (left : (app.top kind count).After past rest) :
    CallsOnce past rest := by
  cases top_stage left with
  | waiting | calling => exact ⟨Nat.zero_le 1, fun response ended => by cases ended⟩
  | checking => exact ⟨Nat.le_refl 1, fun response ended => by cases ended⟩
  | failed | checked => exact ⟨Nat.le_refl 1, fun response ended => rfl⟩

theorem serve_calls_once (goes : call.GoesOut) (relied : ∀ event ∈ past, Relies State.Sound event)
    (left : (app.serve call).After past rest) : CallsOnce past rest := by
  cases call with
  | pending | append => exact goes.elim
  | get | delete | scrape => exact callsOnce_of_direct ⟨_, _, rfl⟩ left
  | top => exact callsOnce_top left
  | flush => exact callsOnce_flush relied left
  | update kind id body =>
    obtain ⟨record, read⟩ := Record.exists_ofJson_iff.mpr goes
    exact callsOnce_of_direct (update_isDirect read) left
  | create kind body =>
    obtain ⟨record, read⟩ := Record.exists_ofJson_iff.mpr goes.1
    have identified := (Record.isIdentified_iff read).mp goes.2
    exact callsOnce_of_direct (create_isDirect read identified) left
  | search parameters =>
    cases asked : parameters.query with
    | error error => exact absurd goes (SearchParameters.not_isValid_of_query asked).1
    | ok query => exact callsOnce_of_direct ⟨_, _, appSearch_eq asked⟩ left

/-- A handler that is done has made no call. -/
theorem outcomesOf_of_done {response : Response} (left : Interaction.After (.done response) past rest) :
    outcomesOf past = [] := by
  obtain ⟨rfl, -⟩ := after_done.mp left
  rfl

theorem serve_calls_nothing (stays : ¬ call.GoesOut) (left : (app.serve call).After past rest) :
    outcomesOf past = [] := by
  cases call with
  | get | delete | top | flush | scrape => exact absurd trivial stays
  | pending kind =>
    rcases Handler.after_change.mp left with ⟨rfl, -⟩ | ⟨now, later, rfl, looked⟩
    · rfl
    · obtain ⟨rfl, -⟩ := after_done.mp looked
      rfl
  | append kind body =>
    cases append_stage app left with
    | refused | waiting | added => rfl
  | update kind id body =>
    cases read : Record.ofJson kind body with
    | ok record => exact absurd (Record.exists_ofJson_iff.mp ⟨record, read⟩) stays
    | error error =>
      rw [App.serve, update_refused read] at left
      exact outcomesOf_of_done left
  | create kind body =>
    cases read : Record.ofJson kind body with
    | error error =>
      rw [App.serve, create_refused read] at left
      exact outcomesOf_of_done left
    | ok record =>
      have valid := Record.exists_ofJson_iff.mp ⟨record, read⟩
      have unidentified : record.identifier?.isSome = false := by
        rw [← Bool.not_eq_true, ← Record.isIdentified_iff read]
        exact fun identified => stays ⟨valid, identified⟩
      rw [App.serve, create_unidentified read unidentified] at left
      exact outcomesOf_of_done left
  | search parameters =>
    cases asked : parameters.query with
    | ok query => exact absurd (SearchParameters.isValid_of_query asked).1 stays
    | error error =>
      rw [App.serve, appSearch_refused asked] at left
      exact outcomesOf_of_done left

end Web

/-! ## Both front ends -/

/-- A command sends one request if it is valid, and otherwise it sends none and fails. -/
theorem Command.requests_of_course {files : String → Option String} {json : Bool} {topK : Nat}
    {command : Command} {events : List Command.Occurrence} {result : Except Command.Failure Unit}
    (course : Command.Course files json topK command events result) :
    (command.IsValid files ∧ (Command.requests events).length = 1) ∨
      ¬ command.IsValid files ∧ Command.requests events = [] ∧ ∃ failure, result = .error failure := by
  cases course with
  | refused invalid => exact .inr ⟨invalid, Command.requests_loads, _, rfl⟩
  | sent valid proceeds =>
    obtain ⟨concludes⟩ := proceeds
    rw [Command.requests_sent concludes]
    exact .inl ⟨valid, rfl⟩

/-- **One round trip at most, and none in front of a check.** Whatever a command is given, whatever is in the
environment and in the files and whatever the service does, it sends one request if all of what it is given
is valid and none otherwise, and it succeeds only if it sent one. So does a request to the web front end,
however many others are under way: it makes no call if it only works on what waits or if its body or query
is not valid, and otherwise one until it has its response. -/
theorem one_round_trip_at_most :
    (∀ (environment : Environment) (arguments : Command.Arguments) (files : String → Option String)
        (events : List Command.Occurrence) (result : Except Command.Failure Unit),
      Command.Told files events →
      Command.Session.Goes (Command.execute environment arguments) events result →
      (Command.requests events).length ≤ 1 ∧
        (Command.requests events = [] ↔ ¬ (environment.IsValid ∧ arguments.command.IsValid files)) ∧
        (result = .ok () → (Command.requests events).length = 1)) ∧
    ∀ (app : Web.App) (history : List Web.Moment) (server : Web.Server),
      Web.Server.Reached app history server → ∀ job ∈ server.jobs,
      (Web.outcomesOf job.past).length ≤ 1 ∧
        (¬ job.call.GoesOut → Web.outcomesOf job.past = []) ∧
        (job.call.GoesOut → ∀ response, job.rest = .done response →
          (Web.outcomesOf job.past).length = 1) := by
  constructor
  · intro environment arguments files events result told goes
    rcases Command.execute_course goes with
      ⟨invalid, rfl, failure, rfl⟩ | ⟨valid, settings, files', -, course⟩
    · refine ⟨Nat.zero_le 1, iff_of_true rfl fun both => invalid both.1, fun done => ?_⟩
      cases done
    · rcases Command.requests_of_course (course.of_told told) with
        ⟨valid', once⟩ | ⟨invalid, never, failure, rfl⟩
      · refine ⟨Nat.le_of_eq once, ?_, fun _ => once⟩
        have nonempty : Command.requests events ≠ [] := List.ne_nil_of_length_pos (by omega)
        exact iff_of_false nonempty fun either => either ⟨valid, valid'⟩
      · rw [never]
        refine ⟨Nat.zero_le 1, iff_of_true rfl fun both => invalid both.2, fun done => ?_⟩
        cases done
  · intro app history server reached job member
    have relied := (Web.job_sound reached).2 job member
    have left := Web.job_after reached job member
    by_cases goes : job.call.GoesOut
    · have calls := Web.serve_calls_once goes relied left
      exact ⟨calls.atMost, fun stays => absurd goes stays, fun _ => calls.atEnd⟩
    · have never := Web.serve_calls_nothing goes left
      rw [never]
      exact ⟨Nat.zero_le 1, fun _ => rfl, fun goes' => absurd goes' goes⟩

/-- A page is scraped by a command, and waiting records are created by the web front end: one request each. -/
theorem one_round_trip_at_most_answered :
    (∃ events, Command.Session.Goes (Command.execute ⟨none, none, none⟩ ⟨none, true, .scrape "shelf"⟩) events
        (.ok ()) ∧ (Command.requests events).length = 1) ∧
      ∃ history server, Web.Server.Reached ⟨⟨"http://shelf"⟩, 5⟩ history server ∧
        server.jobs.map (fun job => (Web.outcomesOf job.past).length) = [1] := by
  constructor
  · have rest : Command.Session.Goes (Command.emitReply true ⟨201, lenientBody .empty⟩) [⟨.print _, ()⟩]
        (.ok ()) := Command.Session.goes_effect_bind.mpr ⟨(), [], rfl, runs_done.mpr ⟨rfl, rfl⟩⟩
    have goes : Command.Session.Goes (Command.execute ⟨none, none, none⟩ ⟨none, true, .scrape "shelf"⟩) _ _ :=
      runs_ask.mpr ⟨.answered 201 .empty, _, rfl, rest⟩
    refine ⟨_, goes, (one_round_trip_at_most.1 _ _ (fun _ => none) _ _ ?told goes).2.2 rfl⟩
    intro path content looked
    rcases List.mem_cons.mp looked with sent | printed
    · cases sent
    · cases List.mem_singleton.mp printed
  · let app : Web.App := ⟨⟨"http://shelf"⟩, 5⟩
    have rest : Web.Server.Reached app _ _ := .start
    have arrived := rest.step (.arrive _ _ (.flush .book))
    have taken := arrived.step (.advance [] [] _ _ _ (.change _ _))
    have answered := taken.step (.advance [] [] _ _ _ (.send _ _ (.answered 201 .empty)))
    refine ⟨_, _, answered, ?_⟩
    have once := (one_round_trip_at_most.2 app _ _ answered _ List.mem_cons_self).2.2 trivial _ rfl
    exact congrArg (fun count => [count]) once

end BookCatalog
