import BookCatalog.Proofs.Web.Frame

/-!
The order of waiting records. A flush that gets no answer puts its records back in front of those that wait, so
the records keep the order in which they were appended, unless a flush puts its records back behind another
one that overlaps with it and started earlier: then the older records stand behind the younger ones.
-/
namespace BookCatalog.Web

open Service Interaction

/-- What happens to the waiting records of a kind: one is appended, or the request of a number takes all of
them away for a flush or puts those that it took back. -/
inductive Mark where
  | append (record : Record)
  | take (number : Nat)
  | give (number : Nat)

/-- The request that takes the waiting records. -/
def Mark.taken? : Mark → Option Nat
  | .take number => some number
  | _ => none

/-- The request that puts records back. -/
def Mark.given? : Mark → Option Nat
  | .give number => some number
  | _ => none

/-- The requests that have arrived, in their order. -/
def arrivals (history : List Moment) : List Call :=
  history.filterMap fun
    | .arrival call => some call
    | .step _ _ _ => none

/-- What the next effect of a request does to the waiting records of a kind, by the effects that it has had. A
flush has a third effect only if it puts records back. -/
def Call.mark? (kind : Kind) (number : Nat) (call : Call) (past : List Occurrence) : Option Mark :=
  match call, past with
  | .append own body, [] => if own = kind then (Record.ofJson own body).toOption.map .append else none
  | .flush own, [] => if own = kind then some (.take number) else none
  | .flush own, [_, _] => if own = kind then some (.give number) else none
  | _, _ => none

/-- What a moment does to the waiting records of a kind, by the history before it. -/
def markOf (kind : Kind) (earlier : List Moment) : Moment → Option Mark
  | .arrival _ => none
  | .step number _ _ =>
    (arrivals earlier)[number]?.bind fun call => call.mark? kind number (effectsOf number earlier)

/-- What a history does to them, by what was before it. -/
def marksFrom (kind : Kind) (earlier : List Moment) : List Moment → List Mark
  | [] => []
  | moment :: later =>
    (markOf kind earlier moment).toList ++ marksFrom kind (earlier ++ [moment]) later

/-- What a history does to the waiting records of a kind, in its order. -/
def marks (kind : Kind) (history : List Moment) : List Mark := marksFrom kind [] history

/-- The records that are appended, in their order. -/
def appendedIn (marks : List Mark) : List Record :=
  marks.filterMap fun
    | .append record => some record
    | _ => none

/-- Two flushes overlap, and each puts its records back, the one that started first before the other. -/
def Crosses (first second : Nat) (marks : List Mark) : Prop :=
  [.take first, .take second, .give first, .give second].Sublist marks

variable {app : App} {kind : Kind} {history : List Moment} {server : Server} {state state' : State}
  {call : Call} {past : List Occurrence} {op : Effect} {answer : op.Answer}
  {next : op.Answer → Handler Response}

/-! ## What moments do -/

theorem marksFrom_append {earlier first second : List Moment} :
    marksFrom kind earlier (first ++ second) =
      marksFrom kind earlier first ++ marksFrom kind (earlier ++ first) second := by
  induction first generalizing earlier with
  | nil => simp [marksFrom]
  | cons moment later ih => simp [marksFrom, ih]

theorem marks_snoc {moment : Moment} :
    marks kind (history ++ [moment]) = marks kind history ++ (markOf kind history moment).toList := by
  simp [marks, marksFrom_append, marksFrom]

theorem arrivals_eq (reached : server.Reached app history) : arrivals history = server.jobs.map Job.call := by
  induction reached with
  | start => rfl
  | step reached step ih =>
    rw [arrivals, List.filterMap_append, ← arrivals, ih]
    cases step with
    | arrive => simp
    | advance => simp

theorem appendedIn_append {earlier later : List Mark} :
    appendedIn (earlier ++ later) = appendedIn earlier ++ appendedIn later :=
  List.filterMap_append

theorem appendedIn_give {number : Nat} {marks : List Mark} :
    appendedIn (marks ++ [.give number]) = appendedIn marks := by
  rw [appendedIn_append]
  exact List.append_nil _

/-- What a step of a request does to the waiting records of a kind, and to those that the request holds. -/
inductive Shift (kind : Kind) (number : Nat) (state state' : State) (job job' : Job) : Option Mark → Prop where
  | append (record : Record) (grown : (state'.batch kind).records = (state.batch kind).records ++ [record])
      (idle : job'.held kind = []) : Shift kind number state state' job job' (some (.append record))
  | take (emptied : (state'.batch kind).records = []) (holds : job'.held kind = (state.batch kind).records) :
      Shift kind number state state' job job' (some (.take number))
  | give (back : (state'.batch kind).records = job.held kind ++ (state.batch kind).records)
      (free : job'.held kind = []) :
      Shift kind number state state' job job' (some (.give number))
  | keep (same : (state'.batch kind).records = (state.batch kind).records)
      (holds : job'.held kind = job.held kind ∨ job'.held kind = []) :
      Shift kind number state state' job job' none

theorem append_shift (app : App) (number : Nat) {body : Json} (sound : state.Sound)
    (left : (app.append kind body).After past (.ask op next)) (taken : Effect.Takes state ⟨op, answer⟩ state') :
    Shift kind number state state' ⟨.append kind body, past, .ask op next⟩
      ⟨.append kind body, past ++ [⟨op, answer⟩], next answer⟩
      ((Call.append kind body).mark? kind number past) := by
  cases append_stage app left with
  | @waiting record read =>
    obtain ⟨rfl, rfl⟩ := takes_change.mp taken
    simp only [Call.mark?, if_true, read, Except.toOption, Option.map_some]
    exact .append record (sound.records_append (Record.kind_of_ofJson read)) rfl

theorem flush_shift (number : Nat) (sound : state.Sound) (relied : ∀ event ∈ past, Relies State.Sound event)
    (left : (app.flush kind).After past (.ask op next)) (taken : Effect.Takes state ⟨op, answer⟩ state') :
    Shift kind number state state' ⟨.flush kind, past, .ask op next⟩
      ⟨.flush kind, past ++ [⟨op, answer⟩], next answer⟩ ((Call.flush kind).mark? kind number past) := by
  cases flush_stage relied left with
  | waiting sends =>
    obtain ⟨rfl, rfl⟩ := takes_change.mp taken
    rw [sends answer sound]
    simp only [Call.mark?, if_true]
    exact .take (by rw [State.batch_clear, if_pos rfl]; rfl) (by rw [List.nil_append, held_ask, if_pos rfl])
  | sending before sound' =>
    obtain rfl := takes_send.mp taken
    refine .keep rfl ?_
    rw [List.singleton_append, held_settle, held_ask, if_pos rfl, if_pos rfl]
    cases answer with
    | unanswered => exact .inl rfl
    | answered status body => exact .inr rfl
  | restoring before sound' =>
    obtain ⟨rfl, rfl⟩ := takes_change.mp taken
    simp only [Call.mark?, if_true]
    exact .give (by rw [State.batch_restore, if_pos rfl, held_ask, if_pos rfl]; rfl) rfl

/-- A request that works on another batch or on none leaves no marks. -/
theorem mark?_of_other {number : Nat} (other : call.batch? ≠ some kind) : call.mark? kind number past = none := by
  cases call with
  | append own body =>
    have apart : own ≠ kind := fun same => other (congrArg some same)
    cases past <;> simp [Call.mark?, apart]
  | flush own =>
    have apart : own ≠ kind := fun same => other (congrArg some same)
    rcases past with _ | ⟨_, _ | ⟨_, _ | _⟩⟩ <;> simp [Call.mark?, apart]
  | get | delete | update | create | search | top | pending | scrape => rfl

/-- Nor does it hold any records. -/
theorem held_of_other {rest : Handler Response} (other : call.batch? ≠ some kind) :
    Job.held kind ⟨call, past, rest⟩ = [] := by
  cases call with
  | flush own =>
    have apart : own ≠ kind := fun same => other (congrArg some same)
    unfold Job.held
    split
    · rename_i same _ _
      cases same
      exact if_neg apart
    · rfl
  | get | delete | update | create | search | top | pending | append | scrape => rfl

/-- **What a step of any request does to the waiting records of a kind is what the history says.** -/
theorem step_shift (kind : Kind) (number : Nat) (sound : state.Sound)
    (relied : ∀ event ∈ past, Relies State.Sound event)
    (left : (app.serve call).After past (.ask op next)) (taken : Effect.Takes state ⟨op, answer⟩ state') :
    Shift kind number state state' ⟨call, past, .ask op next⟩ ⟨call, past ++ [⟨op, answer⟩], next answer⟩
      (call.mark? kind number past) := by
  by_cases works : call.batch? = some kind
  · cases call with
    | append own body =>
      cases works
      exact append_shift app number sound left taken
    | flush own =>
      cases works
      exact flush_shift number sound relied left taken
    | get | delete | update | create | search | top | pending | scrape => cases works
  · rw [mark?_of_other works]
    exact .keep (by rw [spares_others relied left taken works]) (.inr (held_of_other works))

/-! ## Flushes that may still put records back -/

/-- A flush has put its records back behind the start of another one that it overlaps with. -/
def Passed (marks : List Mark) (number : Nat) : Prop :=
  ∃ first, [.take first, .take number, .give first].Sublist marks

/-- The waiting records are in order, and would be if the flushes on the stack put theirs back from its end on.
The other flushes that hold records must not put them back any more. -/
structure Stacked (marks : List Mark) (waiting : List Record) (held : Nat → List Record)
    (stack : List (Nat × List Record)) : Prop where
  inOrder : (stack.flatMap Prod.snd ++ waiting).Sublist (appendedIn marks)
  taken : ∀ entry ∈ stack, .take entry.1 ∈ marks
  started : stack.Pairwise fun entry other => [.take entry.1, .take other.1].Sublist marks
  accounted : ∀ number, held number = [] ∨ (number, held number) ∈ stack ∨ Passed marks number

section

variable {marks : List Mark} {waiting : List Record} {held held' : Nat → List Record}
  {stack : List (Nat × List Record)} {number : Nat}

theorem Passed.append (passed : Passed marks number) (later : List Mark) : Passed (marks ++ later) number := by
  obtain ⟨first, crossing⟩ := passed
  exact ⟨first, crossing.trans (List.sublist_append_left _ _)⟩

namespace Stacked

variable (stacked : Stacked marks waiting held stack)
include stacked

theorem waiting_sublist : waiting.Sublist (appendedIn marks) :=
  (List.sublist_append_right _ _).trans stacked.inOrder

theorem keep (kept : ∀ other, held' other = held other ∨ held' other = []) :
    Stacked marks waiting held' stack where
  inOrder := stacked.inOrder
  taken := stacked.taken
  started := stacked.started
  accounted other := by
    rcases kept other with same | nothing
    · rw [same]
      exact stacked.accounted other
    · exact .inl nothing

/-- What happens besides the flushes on the stack leaves them there. -/
theorem later (mark : Mark) {waiting' : List Record}
    (inOrder : (stack.flatMap Prod.snd ++ waiting').Sublist (appendedIn (marks ++ [mark]))) :
    Stacked (marks ++ [mark]) waiting' held stack where
  inOrder := inOrder
  taken entry member := List.mem_append_left _ (stacked.taken entry member)
  started := stacked.started.imp fun order => order.trans (List.sublist_append_left _ _)
  accounted other := (stacked.accounted other).imp_right (Or.imp_right (·.append _))

theorem append (record : Record) : Stacked (marks ++ [.append record]) (waiting ++ [record]) held stack := by
  apply stacked.later
  rw [← List.append_assoc, appendedIn_append]
  exact stacked.inOrder.append_right _

/-- A flush that starts goes on the stack with everything that waits. -/
theorem take (others : ∀ other, other ≠ number → held' other = held other)
    (holds : held' number = waiting) :
    Stacked (marks ++ [.take number]) [] held' (stack ++ [(number, waiting)]) where
  inOrder := by
    rw [appendedIn_append]
    simpa [appendedIn] using stacked.inOrder
  taken := by
    refine List.forall_mem_append.mpr ⟨fun entry member => ?_, ?_⟩
    · exact List.mem_append_left _ (stacked.taken entry member)
    · exact List.forall_mem_singleton.mpr (List.mem_append_right _ (List.mem_singleton_self _))
  started := by
    refine List.pairwise_append.mpr ⟨?_, List.pairwise_singleton _ _, fun entry member other last => ?_⟩
    · exact stacked.started.imp fun order => order.trans (List.sublist_append_left _ _)
    · rw [List.mem_singleton.mp last]
      exact (List.singleton_sublist.mpr (stacked.taken entry member)).append_right [.take number]
  accounted other := by
    by_cases own : other = number
    · subst own
      rw [holds]
      exact .inr (.inl (List.mem_append_right _ (List.mem_singleton_self _)))
    · rw [others other own]
      exact (stacked.accounted other).imp_right (Or.imp (List.mem_append_left _) (·.append _))

/-- A flush that puts its records back leaves the stack, and so do those that started behind it: their records
are younger, and must not come in front of these any more. -/
theorem pop {before behind : List (Nat × List Record)}
    (split : stack = before ++ (number, held number) :: behind)
    (kept : ∀ other, held' other = held other ∨ held' other = []) (free : held' number = []) :
    Stacked (marks ++ [.give number]) (held number ++ waiting) held' before := by
  subst split
  obtain ⟨started, behind_started, -⟩ := List.pairwise_append.mp stacked.started
  constructor
  case inOrder =>
    rw [appendedIn_give]
    refine List.Sublist.trans ?_ stacked.inOrder
    simp only [List.flatMap_append, List.flatMap_cons, List.append_assoc]
    exact ((List.sublist_append_right _ _).append_left _).append_left _
  case taken =>
    intro entry member
    exact List.mem_append_left _ (stacked.taken entry (List.mem_append_left _ member))
  case started => exact started.imp fun order => order.trans (List.sublist_append_left _ _)
  case accounted =>
    intro other
    rcases kept other with same | nothing
    · rw [same]
      have account := stacked.accounted other
      rw [List.mem_append, List.mem_cons] at account
      rcases account with nothing | (early | own | late) | passed
      · exact .inl nothing
      · exact .inr (.inl early)
      · obtain rfl : other = number := congrArg Prod.fst own
        exact .inl (same.symm.trans free)
      · have order := (List.pairwise_cons.mp behind_started).1 _ late
        exact .inr (.inr ⟨number, order.append_right [.give number]⟩)
      · exact .inr (.inr (passed.append _))
    · exact .inl nothing

theorem give (uncrossed : ∀ first, ¬ Crosses first number (marks ++ [.give number]))
    (kept : ∀ other, held' other = held other ∨ held' other = []) (free : held' number = []) :
    ∃ stack', Stacked (marks ++ [.give number]) (held number ++ waiting) held' stack' := by
  rcases stacked.accounted number with nothing | member | ⟨first, crossing⟩
  · refine ⟨stack, (stacked.keep kept).later _ ?_⟩
    rw [nothing, appendedIn_give]
    exact stacked.inOrder
  · obtain ⟨before, behind, split⟩ := List.append_of_mem member
    exact ⟨before, stacked.pop split kept free⟩
  · exact absurd (crossing.append_right [.give number]) (uncrossed first)

/-- Whatever a step does to the waiting records, they stay in order unless flushes have crossed. -/
theorem shift {job job' : Job} {mark : Option Mark} {after : List Record}
    (shift : Shift kind number state state' job job' mark) (found : (state.batch kind).records = waiting)
    (left : (state'.batch kind).records = after)
    (uncrossed : ∀ first second, ¬ Crosses first second (marks ++ mark.toList))
    (others : ∀ other, other ≠ number → held' other = held other) (own : held number = job.held kind)
    (own' : held' number = job'.held kind) :
    ∃ stack', Stacked (marks ++ mark.toList) after held' stack' := by
  subst found left
  have kept : (job'.held kind = job.held kind ∨ job'.held kind = []) →
      ∀ other, held' other = held other ∨ held' other = [] := by
    intro holds other
    by_cases same : other = number
    · rw [same, own, own']
      exact holds
    · exact .inl (others other same)
  cases shift with
  | append record grown idle =>
    rw [grown]
    exact ⟨stack, (stacked.keep (kept (.inr idle))).append record⟩
  | take emptied holds =>
    rw [emptied]
    exact ⟨_, stacked.take others (own'.trans holds)⟩
  | give back free =>
    rw [back, ← own]
    exact stacked.give (fun first => uncrossed first number) (kept (.inr free)) (own'.trans free)
  | keep same holds =>
    rw [same, Option.toList_none, List.append_nil]
    exact ⟨stack, stacked.keep (kept holds)⟩

end Stacked

end

/-! ## Whole histories -/

/-- The records of a kind that the request of a number holds. -/
def heldBy (kind : Kind) (jobs : List Job) (number : Nat) : List Record :=
  (jobs[number]?.map (Job.held kind)).getD []

theorem heldBy_arrive {jobs : List Job} {number : Nat} :
    heldBy kind (jobs ++ [⟨call, [], app.serve call⟩]) number = heldBy kind jobs number := by
  unfold heldBy
  rcases Nat.lt_trichotomy number jobs.length with inside | rfl | outside
  · rw [List.getElem?_append_left inside]
  · simp [fresh_has_nothing]
  · obtain ⟨gap, rfl⟩ := Nat.exists_eq_add_of_lt outside
    simp [Nat.add_assoc]

theorem heldBy_own {before behind : List Job} {job : Job} :
    heldBy kind (before ++ job :: behind) before.length = job.held kind := by
  simp [heldBy]

theorem heldBy_other {before behind : List Job} {job job' : Job} {number : Nat}
    (other : number ≠ before.length) :
    heldBy kind (before ++ job' :: behind) number = heldBy kind (before ++ job :: behind) number := by
  unfold heldBy
  rcases Nat.lt_or_gt_of_ne other with earlier | later
  · rw [List.getElem?_append_left earlier, List.getElem?_append_left earlier]
  · obtain ⟨gap, rfl⟩ := Nat.exists_eq_add_of_lt later
    simp [Nat.add_assoc, List.getElem?_append_right]

/-- The history tells what a step does by what the request has had. -/
theorem markOf_step {before behind : List Job} {rest : Handler Response} {event : Occurrence}
    {last : Option Response}
    (reached : Server.Reached app history ⟨state, before ++ ⟨call, past, rest⟩ :: behind⟩) :
    markOf kind history (.step before.length event last) = call.mark? kind before.length past := by
  simp [markOf, arrivals_eq reached, effectsOf_eq_past reached]

/-- As long as no flushes have crossed, the waiting records are in order on top of those of a stack of
flushes. -/
theorem exists_stacked (reached : server.Reached app history)
    (uncrossed : ∀ first second, ¬ Crosses first second (marks kind history)) :
    ∃ stack, Stacked (marks kind history) (server.state.batch kind).records (heldBy kind server.jobs)
      stack := by
  induction reached with
  | start =>
    refine ⟨[], ?_, List.forall_mem_nil _, .nil, fun number => .inl rfl⟩
    cases kind <;> exact .slnil
  | step reached step ih =>
    rw [marks_snoc] at uncrossed ⊢
    obtain ⟨stack, stacked⟩ := ih fun first second crosses =>
      uncrossed first second (crosses.trans (List.sublist_append_left _ _))
    cases step with
    | arrive state jobs call =>
      refine ⟨stack, ?_⟩
      simp only [markOf, Option.toList_none, List.append_nil]
      exact stacked.keep fun other => .inl heldBy_arrive
    | @advance state state' before behind call past op answer next taken =>
      obtain ⟨sound, relied⟩ := asking_sound reached
      have shifted := step_shift kind before.length sound relied (asking_after reached) taken
      rw [markOf_step reached] at uncrossed ⊢
      exact stacked.shift shifted rfl rfl uncrossed (fun _ other => heldBy_other other) heldBy_own heldBy_own

/-- **Waiting records are listed in the order in which they were appended**, however requests overlap and
whatever the service answers, as long as no two flushes overlap and put their records back in the order in
which they started. -/
theorem pending_in_append_order (reached : server.Reached app history) (kind : Kind)
    (uncrossed : ∀ first second, ¬ Crosses first second (marks kind history)) :
    (server.state.batch kind).records.Sublist (appendedIn (marks kind history)) ∧
      ∃ response, (app.pending kind).Runs [⟨.change id, server.state⟩] response ∧
        response.Lists kind (server.state.batch kind).records := by
  obtain ⟨stack, stacked⟩ := exists_stacked reached uncrossed
  exact ⟨stacked.waiting_sublist, pending_runs app server.state⟩

/-- Two flushes overlap and neither gets an answer. The second to start is the first to put its record back, and
both records are in order again. -/
theorem pending_in_append_order_nested :
    let dune : Record := ⟨.book, [("title", .text "Dune")]⟩
    let emma : Record := ⟨.book, [("title", .text "Emma")]⟩
    ∃ history server, Server.Reached ⟨⟨"http://shelf"⟩, 5⟩ history server ∧
      (server.state.batch .book).records = [dune, emma] ∧
      marks .book history = [.append dune, .take 1, .append emma, .take 3, .give 3, .give 1] ∧
      (server.state.batch .book).records.Sublist (appendedIn (marks .book history)) := by
  intro dune emma
  let app : App := ⟨⟨"http://shelf"⟩, 5⟩
  have rest : Server.Reached app _ _ := .start
  have asked := rest.step (.arrive _ _ (.append .book dune.toJson))
  have one := asked.step (.advance [] [] _ _ _ (.change _ _))
  have flushing := one.step (.arrive _ _ (.flush .book))
  have taken := flushing.step (.advance [_] [] _ _ _ (.change _ _))
  have asked' := taken.step (.arrive _ _ (.append .book emma.toJson))
  have two := asked'.step (.advance [_, _] [] _ _ _ (.change _ _))
  have flushing' := two.step (.arrive _ _ (.flush .book))
  have taken' := flushing'.step (.advance [_, _, _] [] _ _ _ (.change _ _))
  have failed := taken'.step (.advance [_] [_, _] _ _ _ (.send _ _ .unanswered))
  have failed' := failed.step (.advance [_, _, _] [] _ _ _ (.send _ _ .unanswered))
  have restored' := failed'.step (.advance [_, _, _] [] _ _ _ (.change _ _))
  have restored := restored'.step (.advance [_] [_, _] _ _ _ (.change _ _))
  obtain ⟨history, server, reached, listed, marked⟩ : ∃ history server, Server.Reached app history server ∧
      (server.state.batch .book).records = [dune, emma] ∧
      marks .book history = [.append dune, .take 1, .append emma, .take 3, .give 3, .give 1] :=
    ⟨_, _, restored, by rfl, by rfl⟩
  refine ⟨history, server, reached, listed, marked, (pending_in_append_order reached .book ?_).1⟩
  intro first second crosses
  rw [marked] at crosses
  have taken : [first, second] = [1, 3] := (crosses.filterMap Mark.taken?).eq_of_length rfl
  have given : [first, second] = [3, 1] := (crosses.filterMap Mark.given?).eq_of_length rfl
  cases given.symm.trans taken

/-- If the first to start is the first to put its record back as well, the older record is behind the younger
one. -/
theorem pending_out_of_order :
    let dune : Record := ⟨.book, [("title", .text "Dune")]⟩
    let emma : Record := ⟨.book, [("title", .text "Emma")]⟩
    ∃ history server, Server.Reached ⟨⟨"http://shelf"⟩, 5⟩ history server ∧
      (server.state.batch .book).records = [emma, dune] ∧
      marks .book history = [.append dune, .take 1, .append emma, .take 3, .give 1, .give 3] ∧
      ¬ (server.state.batch .book).records.Sublist (appendedIn (marks .book history)) := by
  intro dune emma
  let app : App := ⟨⟨"http://shelf"⟩, 5⟩
  have rest : Server.Reached app _ _ := .start
  have asked := rest.step (.arrive _ _ (.append .book dune.toJson))
  have one := asked.step (.advance [] [] _ _ _ (.change _ _))
  have flushing := one.step (.arrive _ _ (.flush .book))
  have taken := flushing.step (.advance [_] [] _ _ _ (.change _ _))
  have asked' := taken.step (.arrive _ _ (.append .book emma.toJson))
  have two := asked'.step (.advance [_, _] [] _ _ _ (.change _ _))
  have flushing' := two.step (.arrive _ _ (.flush .book))
  have taken' := flushing'.step (.advance [_, _, _] [] _ _ _ (.change _ _))
  have failed := taken'.step (.advance [_] [_, _] _ _ _ (.send _ _ .unanswered))
  have failed' := failed.step (.advance [_, _, _] [] _ _ _ (.send _ _ .unanswered))
  have restored := failed'.step (.advance [_] [_, _] _ _ _ (.change _ _))
  have restored' := restored.step (.advance [_, _, _] [] _ _ _ (.change _ _))
  obtain ⟨history, server, reached, listed, marked⟩ : ∃ history server, Server.Reached app history server ∧
      (server.state.batch .book).records = [emma, dune] ∧
      marks .book history = [.append dune, .take 1, .append emma, .take 3, .give 1, .give 3] :=
    ⟨_, _, restored', by rfl, by rfl⟩
  refine ⟨history, server, reached, listed, marked, ?_⟩
  rw [listed, marked]
  intro ordered
  have same : [emma, dune] = [dune, emma] := ordered.eq_of_length rfl
  simp [dune, emma] at same

end BookCatalog.Web
