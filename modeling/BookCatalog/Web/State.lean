import BookCatalog.Record.Batch
import BookCatalog.Service.Ticket

/-!
What the requests of a web front end share: one batch of waiting records for each kind, and the
sequencer of rankings. The state changes in single steps, each of which is taken as a whole; what
lies between the steps of one request may be any steps of others.
-/
namespace BookCatalog.Web

/-- The state that requests share. -/
structure State where
  books : Batch
  authors : Batch
  ranking : Service.Sequencer

namespace State

/-- Nothing waits and nothing has been ranked. -/
def start : State := ⟨Batch.empty .book, Batch.empty .author, .start⟩

/-- The batch of a kind. -/
def batch (state : State) : Kind → Batch
  | .book => state.books
  | .author => state.authors

/-- The state with another batch for a kind. -/
def setBatch (state : State) (kind : Kind) (batch : Batch) : State :=
  match kind with
  | .book => { state with books := batch }
  | .author => { state with authors := batch }

/-- Tries to add a record to the batch of a kind. -/
def append (state : State) (kind : Kind) (record : Record) : State :=
  state.setBatch kind ((state.batch kind).push record).2

/-- Leaves an empty batch in place of the one of a kind. -/
def clear (state : State) (kind : Kind) : State := state.setBatch kind (Batch.empty kind)

/-- Puts records back in front of those that wait. -/
def restore (state : State) (kind : Kind) (records : List Record) : State :=
  state.setBatch kind ((state.batch kind).restore records)

/-- Issues a ticket. -/
def issue (state : State) : State := { state with ranking := state.ranking.issue.2 }

end State
end BookCatalog.Web
