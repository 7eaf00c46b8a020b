import BookCatalog.Command.Run
import BookCatalog.Proofs.Interaction

/-!
How the parts go that commands are made of. A part asks for one effect or for none, so its runs can be
listed, and the runs of a sequence of parts are those of the parts one after the other, up to the first
that fails.
-/
namespace BookCatalog.Command

open Service Interaction

/-- An effect with the answer that it got. -/
abbrev Occurrence : Type := Interaction.Event Effect Effect.Answer

/-- The lines that were printed. -/
def printed (events : List Occurrence) : List String :=
  events.filterMap fun
    | ⟨.print line, _⟩ => some line
    | _ => none

/-- The requests that were sent, each with its outcome. -/
def requests (events : List Occurrence) : List (Request × Outcome) :=
  events.filterMap fun
    | ⟨.send request, outcome⟩ => some (request, outcome)
    | _ => none

section

variable {events earlier later : List Occurrence}

theorem printed_append : printed (earlier ++ later) = printed earlier ++ printed later :=
  List.filterMap_append

theorem requests_append : requests (earlier ++ later) = requests earlier ++ requests later :=
  List.filterMap_append

theorem mem_requests {request : Request} {outcome : Outcome}
    (sent : ⟨.send request, outcome⟩ ∈ events) : (request, outcome) ∈ requests events :=
  List.mem_filterMap.mpr ⟨_, sent, rfl⟩

end

namespace Session

variable {α β : Type} {events : List Occurrence}

/-- A session goes through these events and ends so, with the failure in place of a value if it failed. -/
abbrev Goes (session : Session α) (events : List Occurrence) (result : Except Failure α) : Prop :=
  Interaction.Runs session.run events result

theorem goes_pure {value : α} {result : Except Failure α} :
    Goes (pure value) events result ↔ events = [] ∧ result = .ok value :=
  runs_done

theorem goes_throw {failure : Failure} {result : Except Failure α} :
    Goes (throw failure) events result ↔ events = [] ∧ result = .error failure :=
  runs_done

theorem goes_ofExcept {given result : Except Failure α} :
    Goes (ofExcept given) events result ↔ events = [] ∧ result = given := by
  cases given <;> exact runs_done

theorem goes_effect {op : Effect} {result : Except Failure op.Answer} :
    Goes (effect op) events result ↔ ∃ answer, events = [⟨op, answer⟩] ∧ result = .ok answer := by
  change Runs (.ask op fun answer => .done (.ok answer)) events result ↔ _
  simp only [runs_ask, runs_done]
  constructor
  · rintro ⟨answer, _, rfl, rfl, rfl⟩
    exact ⟨answer, rfl, rfl⟩
  · rintro ⟨answer, rfl, rfl⟩
    exact ⟨answer, [], rfl, rfl, rfl⟩

/-! ## Sequences -/

variable {next : α → Session β} {result : Except Failure β}

/-- A sequence ends where its first part fails, and goes on behind it otherwise. -/
theorem goes_bind {first : Session α} :
    Goes (first >>= next) events result ↔
      (∃ failure, Goes first events (.error failure) ∧ result = .error failure) ∨
        ∃ before value behind, events = before ++ behind ∧ Goes first before (.ok value) ∧
          Goes (next value) behind result := by
  rw [Goes, ExceptT.run_bind, runs_bind]
  constructor
  · rintro ⟨before, failure | value, behind, rfl, run, run'⟩
    · obtain ⟨rfl, rfl⟩ := runs_done.mp run'
      exact .inl ⟨failure, by rwa [List.append_nil], rfl⟩
    · exact .inr ⟨before, value, behind, rfl, run, run'⟩
  · rintro (⟨failure, run, rfl⟩ | ⟨before, value, behind, rfl, run, run'⟩)
    · exact ⟨events, .error failure, [], by rw [List.append_nil], run, .done _⟩
    · exact ⟨before, .ok value, behind, rfl, run, run'⟩

theorem goes_effect_bind {op : Effect} {next : op.Answer → Session β} :
    Goes (effect op >>= next) events result ↔
      ∃ answer behind, events = ⟨op, answer⟩ :: behind ∧ Goes (next answer) behind result :=
  runs_ask

theorem goes_ofExcept_bind {given : Except Failure α} :
    Goes (ofExcept given >>= next) events result ↔
      (∃ failure, given = .error failure ∧ events = [] ∧ result = .error failure) ∨
        ∃ value, given = .ok value ∧ Goes (next value) events result := by
  rw [goes_bind]
  simp only [goes_ofExcept]
  constructor
  · rintro (⟨failure, ⟨rfl, rfl⟩, rfl⟩ | ⟨_, value, behind, rfl, ⟨rfl, rfl⟩, goes⟩)
    · exact .inl ⟨failure, rfl, rfl, rfl⟩
    · exact .inr ⟨value, rfl, goes⟩
  · rintro (⟨failure, rfl, rfl, rfl⟩ | ⟨value, rfl, goes⟩)
    · exact .inl ⟨failure, ⟨rfl, rfl⟩, rfl⟩
    · exact .inr ⟨[], value, events, rfl, ⟨rfl, rfl⟩, goes⟩

/-- A call makes its request, and what it reads from the outcome decides how it goes on. -/
theorem goes_call_bind {request : Request} {read : Outcome → Except Error α} :
    Goes (call (Client.send request read) >>= next) events result ↔
      ∃ (outcome : Outcome) (behind : List Occurrence), events = ⟨.send request, outcome⟩ :: behind ∧
        ((∃ error, read outcome = .error error ∧ behind = [] ∧ result = .error (.catalog error)) ∨
          ∃ value, read outcome = .ok value ∧ Goes (next value) behind result) := by
  refine runs_ask.trans ?_
  refine exists_congr fun outcome => exists_congr fun behind => and_congr_right fun _ => ?_
  change Runs (ExceptT.bindCont next ((read outcome).mapError .catalog)) behind result ↔ _
  cases read outcome with
  | error error =>
    refine runs_done.trans ?_
    simp
  | ok value =>
    constructor
    · intro goes
      exact .inr ⟨value, rfl, goes⟩
    · rintro (⟨error, failed, -⟩ | ⟨other, same, goes⟩)
      · cases failed
      · cases same
        exact goes

end Session
end BookCatalog.Command
