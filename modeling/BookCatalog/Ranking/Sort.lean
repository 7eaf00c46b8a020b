/-!
Sorting by partition. The first item is the pivot, and the others go before it if they are less and
behind it if not, so items that tie keep their order. The sort is stated twice, as a recursion on
the two parts and as a loop over a stack of work still to do, which needs no deep recursion on long
lists in bad order.
-/
namespace BookCatalog.Ranking

variable {α : Type}

/-- The sort as a recursion: a partition with its pivot between the sorted parts. -/
def sortRecursively (less : α → α → Bool) : List α → List α
  | [] => []
  | pivot :: rest =>
    sortRecursively less (rest.filter (less · pivot)) ++ pivot ::
      sortRecursively less (rest.filter (!less · pivot))
termination_by items => items.length
decreasing_by
  all_goals
    simp only [List.unattach_filter, List.unattach_attach, List.length_cons]
    exact Nat.lt_succ_of_le (List.length_filter_le ..)

/-- Work still to do: a list to sort, or an item whose turn has come. -/
inductive Work (α : Type) where
  | sort (items : List α)
  | emit (item : α)

/-- Bounds the steps that a piece of work takes. -/
def Work.cost : Work α → Nat
  | .sort items => 3 * items.length + 1
  | .emit _ => 1

/-- Bounds the steps that a stack of work takes. -/
def stackCost : List (Work α) → Nat
  | [] => 0
  | work :: stack => work.cost + stackCost stack

private theorem filter_lengths (p : α → Bool) (items : List α) :
    (items.filter p).length + (items.filter (!p ·)).length = items.length := by
  induction items with
  | nil => rfl
  | cons item items ih =>
    cases holds : p item <;> simp [holds] <;> omega

/-- Does the work on the stack from its top, adding finished items to the output. -/
def runWork (less : α → α → Bool) (stack : List (Work α)) (output : Array α) : Array α :=
  match stack with
  | [] => output
  | .emit item :: stack => runWork less stack (output.push item)
  | .sort [] :: stack => runWork less stack output
  | .sort [item] :: stack => runWork less stack (output.push item)
  | .sort (pivot :: next :: rest) :: stack =>
    let others := next :: rest
    runWork less
      (.sort (others.filter (less · pivot)) :: .emit pivot ::
        .sort (others.filter (!less · pivot)) :: stack)
      output
termination_by stackCost stack
decreasing_by
  all_goals simp only [stackCost, Work.cost, List.length_cons, List.length_nil]
  all_goals try omega
  have lengths := filter_lengths (less · pivot) (next :: rest)
  simp only [List.length_cons] at lengths
  omega

/-- The sorted list, worked out with a stack. -/
def partitionSort (less : α → α → Bool) (items : List α) : List α :=
  (runWork less [.sort items] #[]).toList

end BookCatalog.Ranking
