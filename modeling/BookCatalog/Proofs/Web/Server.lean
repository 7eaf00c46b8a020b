import BookCatalog.Web.Handlers
import BookCatalog.Proofs.Interaction

/-!
The front end with any number of requests under way. A request is an interaction with what was
answered to it so far, and what happens is that another request arrives or that one of them gets its
next answer. Which one that is and what the service says is left open, so a history is any
interleaving of any requests, and what holds of all of them is proved along it.
-/
namespace BookCatalog.Web

open Service

/-- A request as it arrives. -/
inductive Call where
  | get (kind : Kind) (id : String)
  | delete (kind : Kind) (id : String)
  | update (kind : Kind) (id : String) (body : Json)
  | create (kind : Kind) (body : Json)
  | search (parameters : SearchParameters)
  | top (kind : Kind) (count : Option Nat)
  | pending (kind : Kind)
  | append (kind : Kind) (body : Json)
  | flush (kind : Kind)
  | scrape (page : String)

/-- The handler of a request. -/
def App.serve (app : App) : Call → Handler Response
  | .get kind id => app.get kind id
  | .delete kind id => app.delete kind id
  | .update kind id body => app.update kind id body
  | .create kind body => app.create kind body
  | .search parameters => app.search parameters
  | .top kind count => app.top kind count
  | .pending kind => app.pending kind
  | .append kind body => app.append kind body
  | .flush kind => app.flush kind
  | .scrape page => app.scrape page

/-- An effect with the answer that it got. -/
abbrev Occurrence : Type := Interaction.Event Effect Effect.Answer

/-- A request, the effects that it has had, and what is left to be done for it. -/
structure Job where
  call : Call
  past : List Occurrence
  rest : Handler Response

/-- The response, if nothing else is left to be done. -/
def Handler.response? : Handler Response → Option Response
  | .done response => some response
  | .ask _ _ => none

/-- The shared state and the requests, in the order in which they arrived. -/
structure Server where
  state : State
  jobs : List Job

/-- Something that happens to a server. -/
inductive Moment where
  | arrival (call : Call)
  /-- The request of a number has an effect, and gets its response if that was the last. -/
  | step (number : Nat) (event : Occurrence) (response : Option Response)

/-- What an effect does to the state: a step is taken on the state as it is, and a call leaves it
alone whatever comes of it. -/
inductive Effect.Takes : State → Occurrence → State → Prop where
  | change (state : State) (step : State → State) : Takes state ⟨.change step, state⟩ (step state)
  | send (state : State) (request : Request) (outcome : Outcome) :
      Takes state ⟨.send request, outcome⟩ state

/-- A server takes a request in, or does one thing that one of the requests asks for. -/
inductive Server.Step (app : App) : Server → Moment → Server → Prop where
  | arrive (state : State) (jobs : List Job) (call : Call) :
      Step app ⟨state, jobs⟩ (.arrival call) ⟨state, jobs ++ [⟨call, [], app.serve call⟩]⟩
  | advance {state state' : State} (before behind : List Job) (call : Call) (past : List Occurrence)
      {op : Effect} {answer : op.Answer} (next : op.Answer → Handler Response)
      (taken : Effect.Takes state ⟨op, answer⟩ state') :
      Step app ⟨state, before ++ ⟨call, past, .ask op next⟩ :: behind⟩
        (.step before.length ⟨op, answer⟩ (Handler.response? (next answer)))
        ⟨state', before ++ ⟨call, past ++ [⟨op, answer⟩], next answer⟩ :: behind⟩

/-- A history leads from a server at rest to another one. -/
inductive Server.Reached (app : App) : List Moment → Server → Prop where
  | start : Reached app [] ⟨.start, []⟩
  | step {history : List Moment} {moment : Moment} {server server' : Server}
      (reached : Reached app history server) (step : Step app server moment server') :
      Reached app (history ++ [moment]) server'

/-- What a request may rely on while every step keeps an invariant: it takes its own steps on states
that have it. -/
def Relies (invariant : State → Prop) : Occurrence → Prop
  | ⟨.send _, _⟩ => True
  | ⟨.change _, state⟩ => invariant state

/-- An effect that keeps an invariant of the state. -/
def Preserves (invariant : State → Prop) : Effect → Prop
  | .send _ => True
  | .change step => ∀ state, invariant state → invariant (step state)

variable {app : App} {history : List Moment} {server : Server}

theorem takes_change {state state' : State} {step : State → State} {answer : State} :
    Effect.Takes state ⟨.change step, answer⟩ state' ↔ answer = state ∧ state' = step state := by
  constructor
  · rintro ⟨⟩
    exact ⟨rfl, rfl⟩
  · rintro ⟨rfl, rfl⟩
    exact .change _ _

theorem takes_send {state state' : State} {request : Request} {outcome : Outcome} :
    Effect.Takes state ⟨.send request, outcome⟩ state' ↔ state' = state := by
  constructor
  · rintro ⟨⟩
    rfl
  · rintro rfl
    exact .send _ _ _

/-- What holds of the state at the start and of every request as it arrives, and is kept by each
effect, holds at all times. -/
theorem reached_induction (invariant : State → Prop) (holds : Job → Prop) (start : invariant .start)
    (fresh : ∀ call, holds ⟨call, [], app.serve call⟩)
    (advance : ∀ (state state' : State) (call : Call) (past : List Occurrence) (op : Effect)
      (next : op.Answer → Handler Response) (answer : op.Answer),
      Effect.Takes state ⟨op, answer⟩ state' → invariant state → holds ⟨call, past, .ask op next⟩ →
      invariant state' ∧ holds ⟨call, past ++ [⟨op, answer⟩], next answer⟩)
    (reached : server.Reached app history) : invariant server.state ∧ ∀ job ∈ server.jobs, holds job := by
  induction reached with
  | start => exact ⟨start, by simp⟩
  | step reached step ih =>
    obtain ⟨sound, all⟩ := ih
    cases step with
    | arrive state jobs call =>
      refine ⟨sound, fun job member => ?_⟩
      rcases List.mem_append.mp member with old | new
      · exact all job old
      · rw [List.mem_singleton.mp new]
        exact fresh call
    | @advance state state' before behind call past op answer next taken =>
      have kept := advance state state' call past op next answer taken sound (all _ (by simp))
      refine ⟨kept.1, fun job member => ?_⟩
      rcases List.mem_append.mp member with earlier | later
      · exact all job (List.mem_append_left _ earlier)
      · rcases List.mem_cons.mp later with rfl | later
        · exact kept.2
        · exact all job (List.mem_append_right _ (List.mem_cons_of_mem _ later))

/-- What is left of a request is what its handler leaves behind the answers it got. -/
theorem job_after (reached : server.Reached app history) :
    ∀ job ∈ server.jobs, (app.serve job.call).After job.past job.rest := by
  refine (reached_induction (fun _ => True) _ trivial ?_ ?_ reached).2
  · exact fun call => .start _
  · intro _ _ call past op next answer _ _ left
    exact ⟨trivial, left.snoc answer⟩

/-- So is what is left of the request that a step is about to move. -/
theorem asking_after {state : State} {before behind : List Job} {call : Call} {past : List Occurrence}
    {op : Effect} {next : op.Answer → Handler Response}
    (reached : Server.Reached app history ⟨state, before ++ ⟨call, past, .ask op next⟩ :: behind⟩) :
    (app.serve call).After past (.ask op next) :=
  job_after reached _ (List.mem_append_right before List.mem_cons_self)

/-- If no handler breaks an invariant of the state, it holds at all times, and each request has taken
its steps on states that had it. -/
theorem reached_invariant {invariant : State → Prop} (start : invariant .start)
    (steady : ∀ call, (app.serve call).Keeps (Relies invariant) (Preserves invariant))
    (reached : server.Reached app history) :
    invariant server.state ∧ ∀ job ∈ server.jobs, ∀ event ∈ job.past, Relies invariant event := by
  have all := reached_induction invariant
    (fun job => job.rest.Keeps (Relies invariant) (Preserves invariant) ∧
      ∀ event ∈ job.past, Relies invariant event) start
    (fun call => ⟨steady call, by simp⟩) ?_ reached
  · exact ⟨all.1, fun job member => (all.2 job member).2⟩
  · rintro state state' call past op next answer taken sound ⟨⟨keeps, later⟩, relied⟩
    have relies : Relies invariant ⟨op, answer⟩ := by
      cases taken with
      | change => exact sound
      | send => trivial
    have sound' : invariant state' := by
      cases taken with
      | change => exact keeps state sound
      | send => exact sound
    refine ⟨sound', later answer relies, fun event member => ?_⟩
    rcases List.mem_append.mp member with old | new
    · exact relied event old
    · rw [List.mem_singleton.mp new]
      exact relies

/-! ## Histories -/

/-- A history has passed through a server in front of each of its moments. -/
theorem reached_before {earlier later : List Moment} {moment : Moment}
    (reached : server.Reached app (earlier ++ moment :: later)) :
    ∃ before behind, Server.Reached app earlier before ∧ Server.Step app before moment behind := by
  generalize whole : earlier ++ moment :: later = history at reached
  induction reached generalizing later with
  | start => simp at whole
  | @step history last server server' reached step ih =>
    rcases List.eq_nil_or_concat later with rfl | ⟨rest, final, rfl⟩
    · obtain ⟨rfl, rfl⟩ := List.append_inj' whole rfl |>.imp_right List.singleton_inj.mp
      exact ⟨server, server', reached, step⟩
    · have split : (earlier ++ moment :: rest) ++ [final] = history ++ [last] := by simpa using whole
      exact ih (List.append_inj' split rfl).1

/-- A step is taken on the state that the history has led to. -/
theorem state_before {earlier later : List Moment} {number : Nat} {step : State → State} {now : State}
    {response : Option Response}
    (reached : server.Reached app (earlier ++ .step number ⟨.change step, now⟩ response :: later)) :
    ∃ before, Server.Reached app earlier before ∧ before.state = now := by
  obtain ⟨before, behind, reached', taken⟩ := reached_before reached
  generalize moment_eq : Moment.step number ⟨.change step, now⟩ response = moment at taken
  cases taken with
  | arrive => cases moment_eq
  | advance _ _ _ _ _ taken =>
    cases moment_eq
    exact ⟨_, reached', (takes_change.mp taken).1.symm⟩

/-- The effects that the request of a number has had in a history. -/
def effectsOf (number : Nat) (history : List Moment) : List Occurrence :=
  history.filterMap fun
    | .arrival _ => none
    | .step other event _ => if other = number then some event else none

theorem effectsOf_append {number : Nat} {earlier later : List Moment} :
    effectsOf number (earlier ++ later) = effectsOf number earlier ++ effectsOf number later :=
  List.filterMap_append

/-- An effect of a request parts the history in two. -/
theorem effectsOf_split {number : Nat} {event : Occurrence} (events : List Occurrence)
    {events' : List Occurrence} (effects : effectsOf number history = events ++ event :: events') :
    ∃ (earlier : List Moment) (response : Option Response) (later : List Moment),
      history = earlier ++ .step number event response :: later ∧
        effectsOf number earlier = events ∧ effectsOf number later = events' := by
  obtain ⟨before, behind, rfl, before_eq, behind_eq⟩ := List.filterMap_eq_append_iff.mp effects
  obtain ⟨between, moment, later, rfl, others, made, rest⟩ := List.filterMap_eq_cons_iff.mp behind_eq
  cases moment with
  | arrival call => cases made
  | step other event' response =>
    dsimp only at made
    split at made
    · rename_i same
      cases made
      refine ⟨before ++ between, response, later, by simp [same], ?_, rest⟩
      have idle : effectsOf number between = [] := List.filterMap_eq_nil_iff.mpr others
      rw [effectsOf_append, idle, List.append_nil]
      exact before_eq
    · cases made

/-- The effects of a request in the history are those that it remembers. -/
theorem effectsOf_eq_past (reached : server.Reached app history) (number : Nat) :
    effectsOf number history = ((server.jobs[number]?).map Job.past).getD [] := by
  induction reached with
  | start => rfl
  | step reached step ih =>
    rw [effectsOf_append, ih]
    cases step with
    | arrive state jobs call =>
      rcases Nat.lt_trichotomy number jobs.length with inside | rfl | outside
      · simp [effectsOf, List.getElem?_append_left inside]
      · simp [effectsOf]
      · obtain ⟨gap, rfl⟩ := Nat.exists_eq_add_of_lt outside
        simp [effectsOf, Nat.add_assoc]
    | @advance state state' before behind call past op answer next taken =>
      rcases Nat.lt_trichotomy number before.length with earlier | rfl | later
      · have other : before.length ≠ number := by omega
        simp [effectsOf, other, List.getElem?_append_left earlier]
      · simp [effectsOf]
      · obtain ⟨gap, rfl⟩ := Nat.exists_eq_add_of_lt later
        simp [effectsOf, Nat.add_assoc, List.getElem?_append_right]

/-- A response, once given, stays. -/
theorem step_keeps_done {moment : Moment} {server' : Server} (step : Server.Step app server moment server')
    {number : Nat} {job : Job} {response : Response} (found : server.jobs[number]? = some job)
    (ended : job.rest = .done response) : server'.jobs[number]? = some job := by
  cases step with
  | arrive state jobs call =>
    obtain ⟨inside, -⟩ := List.getElem?_eq_some_iff.mp found
    rwa [List.getElem?_append_left inside]
  | @advance state state' before behind call past op answer next taken =>
    have other : number ≠ before.length := by
      rintro rfl
      rw [List.getElem?_append_right (Nat.le_refl _)] at found
      simp only [Nat.sub_self, List.getElem?_cons_zero, Option.some.injEq] at found
      subst found
      cases ended
    rcases Nat.lt_or_gt_of_ne other with earlier | later
    · rwa [List.getElem?_append_left earlier] at found ⊢
    · obtain ⟨gap, rfl⟩ := Nat.exists_eq_add_of_lt later
      simpa [Nat.add_assoc, List.getElem?_append_right] using found

/-- A request that had its last effect has its response. -/
theorem finished_stays (reached : server.Reached app history) {number : Nat} {event : Occurrence}
    {response : Response} (member : .step number event (some response) ∈ history) :
    ∃ job, server.jobs[number]? = some job ∧ job.rest = .done response := by
  induction reached with
  | start => cases member
  | @step history moment server server' reached step ih =>
    rcases List.mem_append.mp member with old | new
    · obtain ⟨job, found, ended⟩ := ih old
      exact ⟨job, step_keeps_done step found ended, ended⟩
    · rw [List.mem_singleton] at new
      cases step with
      | arrive => cases new
      | @advance state state' before behind call past op answer next taken =>
        cases final : next answer with
        | done result =>
          rw [final] at new
          cases new
          exact ⟨⟨call, past ++ [⟨op, answer⟩], .done response⟩, by simp, rfl⟩
        | ask op next =>
          rw [final] at new
          cases new

/-! ## Calls of the service -/

namespace Handler

variable {α : Type} {rely : Occurrence → Prop} {promise : Effect → Prop}

@[simp] theorem call_done (result : α) : call (.done result) = .done result := rfl

@[simp] theorem call_ask (request : Request) (next : Outcome → Exchange α) :
    call (.ask request next) = .ask (.send request) fun outcome => call (next outcome) := rfl

@[simp] theorem call_send {request : Request} {read : Outcome → Except Error α} :
    call (Client.send request read) = .ask (.send request) fun outcome => .done (read outcome) := rfl

@[simp] theorem change_bind {step : State → State} {next : State → Handler α} :
    change step >>= next = .ask (.change step) next := rfl

@[simp] theorem look_bind {next : State → Handler α} : look >>= next = .ask (.change id) next := rfl

theorem after_change {step : State → State} {next : State → Handler α} {past : List Occurrence}
    {rest : Handler α} :
    Interaction.After (.ask (.change step) next) past rest ↔
      (past = [] ∧ rest = .ask (.change step) next) ∨
        ∃ (before : State) (later : List Occurrence), past = ⟨.change step, before⟩ :: later ∧
          Interaction.After (next before) later rest :=
  Interaction.after_ask

theorem after_send {request : Request} {next : Outcome → Handler α} {past : List Occurrence}
    {rest : Handler α} :
    Interaction.After (.ask (.send request) next) past rest ↔
      (past = [] ∧ rest = .ask (.send request) next) ∨
        ∃ (outcome : Outcome) (later : List Occurrence), past = ⟨.send request, outcome⟩ :: later ∧
          Interaction.After (next outcome) later rest :=
  Interaction.after_ask

/-- A call keeps what its requests keep, whatever their outcomes. -/
theorem call_keeps {exchange : Exchange α}
    (sends : exchange.Keeps (fun _ => True) fun request => promise (.send request)) :
    (call exchange).Keeps rely promise := by
  induction exchange with
  | done result => exact trivial
  | ask request next ih => exact ⟨sends.1, fun outcome _ => ih outcome (sends.2 outcome trivial)⟩

end Handler

end BookCatalog.Web
