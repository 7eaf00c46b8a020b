import BookCatalog.Record.Basic

/-!
A batch collects records of one kind until they are created together. Records taken out and given
back stand in front of everything appended meanwhile, so the order of appending is kept.
-/
namespace BookCatalog

/-- Records of one kind that wait to be created. -/
structure Batch where
  kind : Kind
  records : List Record

namespace Batch

/-- A batch without records. -/
def empty (kind : Kind) : Batch := ⟨kind, []⟩

/-- Number of waiting records. -/
def size (batch : Batch) : Nat := batch.records.length

/-- Adds a record at the end, which must be of the batch's kind: the new size or the error, and the
batch as it is left. -/
def push (batch : Batch) (record : Record) : Except Error Nat × Batch :=
  if record.kind = batch.kind then
    let longer := { batch with records := batch.records ++ [record] }
    (.ok longer.size, longer)
  else (.error (.kindMismatch batch.kind record.kind), batch)

/-- The batch with a record more, for those who have no use for the batch if that fails. -/
def append (batch : Batch) (record : Record) : Except Error Batch :=
  let (answer, left) := batch.push record
  answer.map fun _ => left

/-- The waiting records, and the batch without them. -/
def take (batch : Batch) : List Record × Batch := (batch.records, { batch with records := [] })

/-- Puts records back in front of those appended since they were taken. -/
def restore (batch : Batch) (records : List Record) : Batch :=
  { batch with records := records ++ batch.records }

end Batch
end BookCatalog
