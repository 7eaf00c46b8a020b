import Mathlib.Logic.Relation
import BookCatalog.Proofs.Ranking.Sort

/-!
The sort as it runs. The loop takes its work off the top of a stack, one piece a turn: an item goes out, a
list of at most one item goes out as it is, and a longer one comes back in three pieces, so a turn may well
leave more work on the stack than it found. What a turn keeps is what the loop comes to, the items that are
out and behind them all that the stack stands for, and what it lowers is a bound on the turns still to take.
So the loop ends from any stack and output, with what the recursion would have put there.
-/
namespace BookCatalog.Ranking

open Relation

variable {α : Type} {less : α → α → Bool}

/-! ## Turns of the loop -/

/-- Where the loop is: the work on its stack, the top first, and the items that are out. -/
structure Loop (α : Type) where
  stack : List (Work α)
  output : Array α

/-- One turn of the loop. There is none without work. -/
inductive Turn (less : α → α → Bool) : Loop α → Loop α → Prop where
  | emit (item : α) (stack : List (Work α)) (output : Array α) :
      Turn less ⟨.emit item :: stack, output⟩ ⟨stack, output.push item⟩
  | short (items : List α) (stack : List (Work α)) (output : Array α) (few : items.length ≤ 1) :
      Turn less ⟨.sort items :: stack, output⟩ ⟨stack, output ++ items⟩
  | split (pivot : α) (rest : List α) (stack : List (Work α)) (output : Array α) (more : rest ≠ []) :
      Turn less ⟨.sort (pivot :: rest) :: stack, output⟩
        ⟨.sort (rest.filter (less · pivot)) :: .emit pivot ::
          .sort (rest.filter (!less · pivot)) :: stack, output⟩

/-- What the loop comes to: the items that are out, and behind them what its stack stands for. -/
def Loop.outcome (less : α → α → Bool) (loop : Loop α) : List α :=
  loop.output.toList ++ loop.stack.flatMap (Work.settled less)

variable {loop next : Loop α} {items : List α}

/-- A list that is not split holds nothing or one item. -/
theorem short_cases (few : items.length ≤ 1) : items = [] ∨ ∃ item, items = [item] := by
  rcases Nat.le_one_iff_eq_zero_or_eq_one.mp few with zero | one
  · exact .inl (List.length_eq_zero_iff.mp zero)
  · exact .inr (List.length_eq_one_iff.mp one)

theorem sortRecursively_of_short (few : items.length ≤ 1) : sortRecursively less items = items := by
  rcases short_cases few with rfl | ⟨item, rfl⟩
  · rw [sortRecursively]
  · simp [sortRecursively]

namespace Turn

theorem outcome_eq (turn : Turn less loop next) : next.outcome less = loop.outcome less := by
  cases turn with
  | emit item stack output => simp [Loop.outcome, Work.settled]
  | short items stack output few => simp [Loop.outcome, Work.settled, sortRecursively_of_short few]
  | split pivot rest stack output more => simp [Loop.outcome, Work.settled, sortRecursively_cons]

/-- The three pieces of a list cost less than the list. -/
theorem cost_lt (turn : Turn less loop next) : stackCost next.stack < stackCost loop.stack := by
  cases turn with
  | emit item stack output => simp [stackCost, Work.cost]
  | short items stack output few => simp [stackCost, Work.cost]
  | split pivot rest stack output more =>
    have lengths := List.length_eq_length_filter_add (less · pivot) (l := rest)
    simp only [stackCost, Work.cost, List.length_cons]
    omega

/-- The loop as a function gives the same from one turn to the next. -/
theorem runWork_next (turn : Turn less loop next) :
    runWork less next.stack next.output = runWork less loop.stack loop.output := by
  cases turn with
  | emit item stack output => rw [runWork]
  | short items stack output few =>
    rcases short_cases few with rfl | ⟨item, rfl⟩
    · simp [runWork]
    · simp [runWork]
  | split pivot rest stack output more =>
    obtain ⟨second, others, rfl⟩ := List.exists_cons_of_ne_nil more
    rw [runWork]

end Turn

/-- The loop goes on as long as there is work. -/
theorem exists_turn_iff : (∃ next, Turn less loop next) ↔ loop.stack ≠ [] := by
  constructor
  · rintro ⟨next, turn⟩
    cases turn <;> exact List.cons_ne_nil _ _
  · intro work
    obtain ⟨stack, output⟩ := loop
    match stack with
    | .emit item :: stack => exact ⟨_, .emit item stack output⟩
    | .sort [] :: stack => exact ⟨_, .short [] stack output (Nat.zero_le 1)⟩
    | .sort (pivot :: rest) :: stack =>
      by_cases more : rest = []
      · subst more
        exact ⟨_, .short [pivot] stack output (Nat.le_refl 1)⟩
      · exact ⟨_, .split pivot rest stack output more⟩

/-! ## The whole run -/

/-- The loop never runs on without end. -/
theorem turn_wellFounded (less : α → α → Bool) : WellFounded fun next loop => Turn less loop next :=
  Subrelation.wf (fun turn => turn.cost_lt) (InvImage.wf (fun loop : Loop α => stackCost loop.stack) Nat.lt_wfRel.wf)

theorem outcome_of_turns (turns : ReflTransGen (Turn less) loop next) : next.outcome less = loop.outcome less := by
  induction turns with
  | refl => rfl
  | tail _ last ih => exact last.outcome_eq.trans ih

/-- Turn by turn the loop comes to an end, and what is out then is what the function gives. -/
theorem turns_to_end (loop : Loop α) :
    ReflTransGen (Turn less) loop ⟨[], runWork less loop.stack loop.output⟩ := by
  -- The induction is on what comes later, since a turn may make the stack longer.
  induction loop using (turn_wellFounded less).induction with
  | _ loop ih =>
    by_cases work : loop.stack = []
    · obtain ⟨stack, output⟩ := loop
      subst work
      rw [runWork]
    · obtain ⟨next, turn⟩ := exists_turn_iff.mpr work
      rw [← turn.runWork_next]
      exact .head turn (ih next turn)

/-- The loop ends with an output exactly if this is what it comes to. -/
theorem turns_to_end_iff {result : Array α} :
    ReflTransGen (Turn less) loop ⟨[], result⟩ ↔ result.toList = loop.outcome less := by
  constructor
  · intro turns
    rw [← outcome_of_turns turns]
    exact (List.append_nil _).symm
  · intro same
    have reached : result = runWork less loop.stack loop.output := by
      apply Array.toList_inj.mp
      rw [same, runWork_eq, Loop.outcome]
    rw [reached]
    exact turns_to_end loop

/-! ## The recursion -/

/-- A function that sorts by recursion: it leaves a list of at most one item as it is, and puts the first item of a
longer one between the sorted lists of those that are less and of the others. -/
structure IsRecursiveSort (less : α → α → Bool) (sort : List α → List α) : Prop where
  short : ∀ items, items.length ≤ 1 → sort items = items
  split : ∀ pivot rest, rest ≠ [] →
    sort (pivot :: rest) = sort (rest.filter (less · pivot)) ++ [pivot] ++ sort (rest.filter (!less · pivot))

theorem sortRecursively_isRecursiveSort (less : α → α → Bool) : IsRecursiveSort less (sortRecursively less) where
  short _ := sortRecursively_of_short
  split pivot rest _ := by rw [sortRecursively_cons, List.append_assoc, List.singleton_append]

/-- There is one such function. -/
theorem IsRecursiveSort.eq {sort : List α → List α} (recursive : IsRecursiveSort less sort) (items : List α) :
    sort items = sortRecursively less items := by
  have own := sortRecursively_isRecursiveSort less
  induction items using partition_induction less with
  | nil => rw [recursive.short [] (Nat.zero_le 1), own.short [] (Nat.zero_le 1)]
  | cons pivot rest before behind =>
    by_cases more : rest = []
    · subst more
      rw [recursive.short [pivot] (Nat.le_refl 1), own.short [pivot] (Nat.le_refl 1)]
    · rw [recursive.split pivot rest more, own.split pivot rest more, before, behind]

/-- **The loop ends and sorts as the recursion does**, whatever the comparison. It takes turns as long as there is
work, and never without end. From any stack and output it ends with that output and behind it, from the top of
the stack down, each list sorted by recursion and each item as it is; and this is what the loop as a function
gives. So of all functions the sort with a stack is the one that sorts by recursion. -/
theorem loop_sorts_as_recursion (less : α → α → Bool) :
    (WellFounded fun next loop => Turn less loop next) ∧
      (∀ loop, (∃ next, Turn less loop next) ↔ loop.stack ≠ []) ∧
      (∀ stack output result, ReflTransGen (Turn less) ⟨stack, output⟩ ⟨[], result⟩ ↔
        result.toList = output.toList ++ stack.flatMap (Work.settled less)) ∧
      (∀ stack output, ReflTransGen (Turn less) ⟨stack, output⟩ ⟨[], runWork less stack output⟩) ∧
      ∀ sort, IsRecursiveSort less sort ↔ sort = partitionSort less := by
  refine ⟨turn_wellFounded less, fun loop => exists_turn_iff, fun stack output result => turns_to_end_iff,
    fun stack output => turns_to_end ⟨stack, output⟩, fun sort => ?_⟩
  have same : partitionSort less = sortRecursively less := funext partitionSort_eq
  rw [same]
  constructor
  · intro recursive
    exact funext recursive.eq
  · rintro rfl
    exact sortRecursively_isRecursiveSort less

end BookCatalog.Ranking
