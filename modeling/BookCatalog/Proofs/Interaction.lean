import BookCatalog.Interaction

/-!
What is left of an interaction once some of its questions are answered, and what it can ask at all.
`After` follows one sequence of answers; `Keeps` speaks of every sequence that an assumption on the
answers admits, and is how a program is held to a promise while others act in between.
-/
namespace BookCatalog.Interaction

variable {Op : Type} {Answer : Op → Type} {α β : Type}

@[simp] theorem done_bind (result : α) (next : α → Interaction Op Answer β) :
    (done result : Interaction Op Answer α) >>= next = next result := rfl

@[simp] theorem ask_bind (op : Op) (answered : Answer op → Interaction Op Answer α)
    (next : α → Interaction Op Answer β) :
    ask op answered >>= next = ask op fun answer => answered answer >>= next := rfl

/-- What is left of an interaction behind these events. -/
inductive After : Interaction Op Answer α → List (Event Op Answer) → Interaction Op Answer α → Prop where
  | start (whole : Interaction Op Answer α) : After whole [] whole
  | ask {op : Op} {next : Answer op → Interaction Op Answer α} {answer : Answer op}
      {events : List (Event Op Answer)} {rest : Interaction Op Answer α}
      (later : After (next answer) events rest) : After (ask op next) (⟨op, answer⟩ :: events) rest

theorem after_done {result : α} {events : List (Event Op Answer)} {rest : Interaction Op Answer α} :
    After (done result) events rest ↔ events = [] ∧ rest = done result := by
  constructor
  · rintro ⟨⟩
    exact ⟨rfl, rfl⟩
  · rintro ⟨rfl, rfl⟩
    exact .start _

theorem after_ask {op : Op} {next : Answer op → Interaction Op Answer α}
    {events : List (Event Op Answer)} {rest : Interaction Op Answer α} :
    After (ask op next) events rest ↔
      (events = [] ∧ rest = ask op next) ∨
        ∃ answer later, events = ⟨op, answer⟩ :: later ∧ After (next answer) later rest := by
  constructor
  · intro left
    cases left with
    | start => exact .inl ⟨rfl, rfl⟩
    | ask later => exact .inr ⟨_, _, rfl, later⟩
  · rintro (⟨rfl, rfl⟩ | ⟨answer, later, rfl, left⟩)
    · exact .start _
    · exact .ask left

/-- One more answer moves what is left past its first question. -/
theorem After.snoc {whole : Interaction Op Answer α} {events : List (Event Op Answer)} {op : Op}
    {next : Answer op → Interaction Op Answer α} (left : After whole events (.ask op next))
    (answer : Answer op) : After whole (events ++ [⟨op, answer⟩]) (next answer) := by
  generalize asked : Interaction.ask op next = rest at left
  induction left with
  | start => subst asked; exact .ask (.start _)
  | ask later ih => exact .ask (ih asked)

/-- An interaction has gone some way to its end exactly when nothing but the result is left. -/
theorem runs_iff_after {whole : Interaction Op Answer α} {events : List (Event Op Answer)}
    {result : α} : Runs whole events result ↔ After whole events (done result) := by
  constructor
  · intro run
    induction run with
    | done => exact .start _
    | ask _ ih => exact .ask ih
  · generalize ended : (done result : Interaction Op Answer α) = rest
    intro left
    induction left with
    | start => subst ended; exact .done _
    | ask _ ih => exact .ask (ih ended)

theorem runs_ask {op : Op} {next : Answer op → Interaction Op Answer α}
    {events : List (Event Op Answer)} {result : α} :
    Runs (ask op next) events result ↔
      ∃ answer later, events = ⟨op, answer⟩ :: later ∧ Runs (next answer) later result := by
  simp [runs_iff_after, after_ask]

theorem runs_done {given result : α} {events : List (Event Op Answer)} :
    Runs (done given) events result ↔ events = [] ∧ result = given := by
  simp [runs_iff_after, after_done]

/-- A run of two interactions is a run of the first and one of what the second makes of its result. -/
theorem runs_bind {first : Interaction Op Answer α} {next : α → Interaction Op Answer β}
    {events : List (Event Op Answer)} {result : β} :
    Runs (first >>= next) events result ↔
      ∃ before value behind, events = before ++ behind ∧ Runs first before value ∧
        Runs (next value) behind result := by
  induction first generalizing events with
  | done value =>
    simp only [done_bind, runs_done]
    constructor
    · intro run
      exact ⟨[], value, events, rfl, ⟨rfl, rfl⟩, run⟩
    · rintro ⟨_, _, behind, rfl, ⟨rfl, rfl⟩, run⟩
      exact run
  | ask op answered ih =>
    simp only [ask_bind, runs_ask, ih]
    constructor
    · rintro ⟨answer, _, rfl, before, value, behind, rfl, run, run'⟩
      exact ⟨_, value, behind, rfl, ⟨answer, before, rfl, run⟩, run'⟩
    · rintro ⟨_, value, behind, rfl, ⟨answer, before, rfl, run⟩, run'⟩
      exact ⟨answer, _, rfl, before, value, behind, rfl, run, run'⟩

/-- However its questions are answered, an interaction comes to a result. -/
theorem exists_runs (whole : Interaction Op Answer α) (reply : (op : Op) → Answer op) :
    ∃ events result, Runs whole events result ∧ ∀ event ∈ events, event.2 = reply event.1 := by
  induction whole with
  | done result => exact ⟨[], result, .done result, by simp⟩
  | ask op next ih =>
    obtain ⟨events, result, run, replied⟩ := ih (reply op)
    exact ⟨_, result, .ask run, List.forall_mem_cons.mpr ⟨rfl, replied⟩⟩

/-- As long as each answer is as relied on, each question keeps the promise. -/
def Keeps (rely : Event Op Answer → Prop) (promise : Op → Prop) : Interaction Op Answer α → Prop
  | done _ => True
  | ask op next => promise op ∧ ∀ answer, rely ⟨op, answer⟩ → (next answer).Keeps rely promise

variable {rely : Event Op Answer → Prop} {promise : Op → Prop}

theorem Keeps.mono {rely' : Event Op Answer → Prop} {promise' : Op → Prop}
    {whole : Interaction Op Answer α} (relied : ∀ event, rely' event → rely event)
    (promised : ∀ op, promise op → promise' op) (keeps : whole.Keeps rely promise) :
    whole.Keeps rely' promise' := by
  induction whole with
  | done result => exact trivial
  | ask op next ih =>
    exact ⟨promised op keeps.1, fun answer fair => ih answer (keeps.2 answer (relied _ fair))⟩

/-- What is left of an interaction keeps the promise as well. -/
theorem Keeps.after {whole rest : Interaction Op Answer α} {events : List (Event Op Answer)}
    (keeps : whole.Keeps rely promise) (left : After whole events rest)
    (relied : ∀ event ∈ events, rely event) : rest.Keeps rely promise := by
  induction left with
  | start => exact keeps
  | ask later ih =>
    obtain ⟨first, others⟩ := List.forall_mem_cons.mp relied
    exact ih (keeps.2 _ first) others

/-- What an interaction has asked so far kept the promise. -/
theorem Keeps.asked {whole rest : Interaction Op Answer α} {events : List (Event Op Answer)}
    (keeps : whole.Keeps rely promise) (left : After whole events rest)
    (relied : ∀ event ∈ events, rely event) : ∀ event ∈ events, promise event.1 := by
  induction left with
  | start => simp
  | ask later ih =>
    obtain ⟨first, others⟩ := List.forall_mem_cons.mp relied
    exact List.forall_mem_cons.mpr ⟨keeps.1, ih (keeps.2 _ first) others⟩

theorem Keeps.bind {first : Interaction Op Answer α} {next : α → Interaction Op Answer β}
    (before : first.Keeps rely promise) (behind : ∀ result, (next result).Keeps rely promise) :
    (first >>= next).Keeps rely promise := by
  induction first with
  | done result => exact behind result
  | ask op answered ih => exact ⟨before.1, fun answer fair => ih answer (before.2 answer fair)⟩

end BookCatalog.Interaction
