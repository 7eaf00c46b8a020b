/-!
Tickets put overlapping requests for one view into order. A request takes a ticket before it goes
out, and its answer counts only if no other ticket has been issued since.
-/
namespace BookCatalog.Service

/-- The place of a request in the order of issue. -/
structure Ticket where
  position : UInt64
  deriving DecidableEq

/-- The order in which tickets were issued. -/
instance : Ord Ticket := ⟨fun ticket other => compare ticket.position other.position⟩

/-- Issues tickets. -/
structure Sequencer where
  /-- The position of the latest ticket; zero before the first. -/
  latest : UInt64

namespace Sequencer

/-- A sequencer that has issued nothing. -/
def start : Sequencer := ⟨0⟩

/-- The next ticket. -/
def issue (sequencer : Sequencer) : Ticket × Sequencer :=
  (⟨sequencer.latest + 1⟩, ⟨sequencer.latest + 1⟩)

/-- Whether a ticket is the latest. -/
def isCurrent (sequencer : Sequencer) (ticket : Ticket) : Bool :=
  sequencer.latest == ticket.position

end Sequencer
end BookCatalog.Service
