/-!
Computations that ask their surroundings. An interaction is finished, or it asks for something and
goes on with the answer; what it asks for and which answers there are is up to its use. Since it is
plain data, everything it can do under any answers can be stated and proved, while the program
performs it by answering for real.
-/
namespace BookCatalog

/-- A computation that asks questions of type `Op` on its way to a result. -/
inductive Interaction (Op : Type) (Answer : Op → Type) (α : Type) where
  | done (result : α)
  | ask (op : Op) (next : Answer op → Interaction Op Answer α)

namespace Interaction

variable {Op : Type} {Answer : Op → Type} {α β : Type}

/-- Goes on with the result of an interaction. -/
def bind (first : Interaction Op Answer α) (next : α → Interaction Op Answer β) :
    Interaction Op Answer β :=
  match first with
  | done result => next result
  | ask op answered => ask op fun answer => (answered answer).bind next

instance : Monad (Interaction Op Answer) where
  pure := done
  bind := bind

/-- Asks once and gives the answer. -/
def request (op : Op) : Interaction Op Answer (Answer op) := ask op done

/-- The same interaction with each question put by another one. -/
def embed {Other : Type} {OtherAnswer : Other → Type}
    (put : (op : Op) → Interaction Other OtherAnswer (Answer op)) :
    Interaction Op Answer α → Interaction Other OtherAnswer α
  | done result => done result
  | ask op next => (put op).bind fun answer => (next answer).embed put

/-- Carries an interaction out, given a way to answer its questions. -/
def perform {m : Type → Type} [Monad m] (respond : (op : Op) → m (Answer op)) :
    Interaction Op Answer α → m α
  | done result => pure result
  | ask op next => do (next (← respond op)).perform respond

/-- A question with the answer that it got. -/
abbrev Event (Op : Type) (Answer : Op → Type) : Type := (op : Op) × Answer op

/-- The ways in which an interaction can go: the questions asked and the answers got, in their
order, and the result. -/
inductive Runs : Interaction Op Answer α → List (Event Op Answer) → α → Prop where
  | done (result : α) : Runs (done result) [] result
  | ask {op : Op} {next : Answer op → Interaction Op Answer α} {answer : Answer op}
      {events : List (Event Op Answer)} {result : α} (rest : Runs (next answer) events result) :
      Runs (ask op next) (⟨op, answer⟩ :: events) result

end Interaction
end BookCatalog
