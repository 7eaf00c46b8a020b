import BookCatalog.Record.Batch

/-!
Batches over whole runs. Whoever takes records out of a batch holds them until they are put back, and until
then nothing else is taken. In between the batch goes on collecting; what is put back stands in front of that,
so the held records and the waiting ones are together what was appended, in the order of appending.
-/
namespace BookCatalog.Batch

/-- A batch of a kind, all of whose records are of it. -/
def OfKind (batch : Batch) (kind : Kind) : Prop :=
  batch.kind = kind ∧ ∀ record ∈ batch.records, record.kind = kind

theorem empty_ofKind (kind : Kind) : (empty kind).OfKind kind := ⟨rfl, by simp [empty]⟩

variable {kind : Kind} {batch : Batch} {record : Record}

/-- A record of the batch's kind is added at the end, and the answer is the new size. -/
theorem push_own (own : record.kind = batch.kind) :
    batch.push record = (.ok (batch.records.length + 1), ⟨batch.kind, batch.records ++ [record]⟩) := by
  simp only [push, own, ↓reduceIte, size, List.length_append, List.length_singleton]

/-- A record of the other kind is refused, and the batch stays as it was. -/
theorem push_other (other : record.kind ≠ batch.kind) :
    batch.push record = (.error (.kindMismatch batch.kind record.kind), batch) := if_neg other

theorem push_ofKind (held : batch.OfKind kind) : (batch.push record).2.OfKind kind := by
  by_cases own : record.kind = batch.kind
  · rw [push_own own]
    refine ⟨held.1, fun other member => ?_⟩
    rcases List.mem_append.mp member with waiting | fresh
    · exact held.2 other waiting
    · rw [List.mem_singleton.mp fresh, own, held.1]
  · rw [push_other own]
    exact held

/-! ## Runs -/

/-- What is done with a batch, and what comes of it. -/
inductive Act where
  | append (record : Record) (answer : Except Error Nat)
  | take (taken : List Record)
  | restore

/-- The records that have been appended, in their order. -/
def accepted (acts : List Act) : List Record :=
  acts.filterMap fun
    | .append record (.ok _) => some record
    | _ => none

/-- A run on one batch, with the records that are held outside it. Records are taken only while none are held,
and the held ones are put back, all of them. -/
inductive Run (kind : Kind) : List Act → Batch → List Record → Prop where
  | start : Run kind [] (.empty kind) []
  | append {acts : List Act} {batch : Batch} {held : List Record} (run : Run kind acts batch held)
      (record : Record) :
      Run kind (acts ++ [.append record (batch.push record).1]) (batch.push record).2 held
  | take {acts : List Act} {batch : Batch} (run : Run kind acts batch []) :
      Run kind (acts ++ [.take batch.take.1]) batch.take.2 batch.take.1
  | restore {acts : List Act} {batch : Batch} {held : List Record} (run : Run kind acts batch held) :
      Run kind (acts ++ [.restore]) (batch.restore held) []

variable {held taken : List Record} {acts : List Act}

theorem accepted_append {earlier later : List Act} :
    accepted (earlier ++ later) = accepted earlier ++ accepted later :=
  List.filterMap_append

theorem Run.ofKind (run : Run kind acts batch held) :
    batch.OfKind kind ∧ ∀ record ∈ held, record.kind = kind := by
  induction run with
  | start => exact ⟨empty_ofKind kind, List.forall_mem_nil _⟩
  | append run record ih => exact ⟨push_ofKind ih.1, ih.2⟩
  | take run ih => exact ⟨⟨ih.1.1, List.forall_mem_nil _⟩, ih.1.2⟩
  | restore run ih =>
    exact ⟨⟨ih.1.1, List.forall_mem_append.mpr ⟨ih.2, ih.1.2⟩⟩, List.forall_mem_nil _⟩

/-- What is held and what waits are together what has been appended. -/
theorem Run.accounted (run : Run kind acts batch held) : held ++ batch.records = accepted acts := by
  induction run with
  | start => rfl
  | @append acts batch held run record ih =>
    rw [accepted_append, ← ih, List.append_assoc]
    by_cases own : record.kind = batch.kind
    · rw [push_own own]
      rfl
    · rw [push_other own]
      simp [accepted]
  | take run ih => simpa [accepted_append, accepted, Batch.take] using ih
  | restore run ih => simpa [accepted_append, accepted, Batch.restore] using ih

/-- An act of a run is its last one or was done before that. -/
theorem split_of_snoc {act mark : Act} {earlier later : List Act}
    (split : acts ++ [act] = earlier ++ mark :: later) :
    acts = earlier ∧ act = mark ∨ ∃ rest, acts = earlier ++ mark :: rest := by
  rcases List.eq_nil_or_concat later with rfl | ⟨rest, last, rfl⟩
  · obtain ⟨same, own⟩ := List.append_inj' split rfl
    exact .inl ⟨same, List.singleton_inj.mp own⟩
  · rw [List.concat_eq_append, ← List.cons_append, ← List.append_assoc] at split
    exact .inr ⟨rest, (List.append_inj' split rfl).1⟩

/-- What is taken is all that has been appended until then. -/
theorem Run.taken_eq (run : Run kind acts batch held) {earlier later : List Act}
    (split : acts = earlier ++ .take taken :: later) : taken = accepted earlier := by
  induction run generalizing later with
  | start => simp at split
  | append run record ih | restore run ih =>
    obtain ⟨-, other⟩ | ⟨rest, before⟩ := split_of_snoc split
    · cases other
    · exact ih before
  | take run ih =>
    obtain ⟨rfl, own⟩ | ⟨rest, before⟩ := split_of_snoc split
    · cases own
      exact run.accounted
    · exact ih before

/-- **A batch keeps its order and its kind.** After every act of a run, the records held and those waiting are
together what has been appended, in the order of appending, and all of them are of the batch's kind. The next
record of that kind is added at the end and the answer is the new size; one of the other kind is refused and
changes nothing. So what is taken stays in front of all that is appended after that, once it is put back too. -/
theorem run_keeps_order (run : Run kind acts batch held) :
    held ++ batch.records = accepted acts ∧
      (batch.kind = kind ∧ ∀ record ∈ held ++ batch.records, record.kind = kind) ∧
      (∀ record, record.kind = kind →
        batch.push record = (.ok (batch.records.length + 1), ⟨kind, batch.records ++ [record]⟩) ∧
          batch.append record = .ok ⟨kind, batch.records ++ [record]⟩) ∧
      (∀ record, record.kind ≠ kind →
        batch.push record = (.error (.kindMismatch kind record.kind), batch) ∧
          batch.append record = .error (.kindMismatch kind record.kind)) ∧
      ∀ earlier taken later, acts = earlier ++ .take taken :: later →
        held ++ batch.records = taken ++ accepted later := by
  obtain ⟨⟨rfl, waiting⟩, outside⟩ := run.ofKind
  refine ⟨run.accounted, ⟨rfl, List.forall_mem_append.mpr ⟨outside, waiting⟩⟩, fun record own => ?own,
    fun record other => ?other, fun earlier taken later split => ?order⟩
  case own => simp only [append, push_own own, Except.map, and_self]
  case other => simp only [append, push_other other, Except.map, and_self]
  case order =>
    rw [run.accounted, run.taken_eq split, split, accepted_append]
    rfl

/-- A record that comes while others are held ends up behind them, and one of the other kind nowhere. -/
theorem run_keeps_order_meanwhile :
    let dune : Record := ⟨.book, [("title", .text "Dune")]⟩
    let emma : Record := ⟨.book, [("title", .text "Emma")]⟩
    let herbert : Record := ⟨.author, [("name", .text "Herbert")]⟩
    let meanwhile : List Act :=
      [.append herbert (.error (.kindMismatch .book .author)), .append emma (.ok 1), .restore]
    ∃ batch, Run .book (.append dune (.ok 1) :: .take [dune] :: meanwhile) batch [] ∧
      batch.records = [dune, emma] := by
  intro dune emma herbert meanwhile
  have begun : Run .book _ _ _ := Run.start.append dune
  have run := ((begun.take.append herbert).append emma).restore
  exact ⟨_, run, (run_keeps_order run).2.2.2.2 [.append dune (.ok 1)] [dune] meanwhile rfl⟩

end BookCatalog.Batch
