import BookCatalog.Web.State
import BookCatalog.Proofs.Service.Bulk

/-!
What single steps do to the shared state. Each changes the batch of one kind or issues a ticket, and
none puts a record into the batch of the other kind.
-/
namespace BookCatalog.Web.State

variable {state : State} {kind other : Kind} {record : Record} {records : List Record} {batch : Batch}

theorem batch_setBatch :
    (state.setBatch kind batch).batch other = if other = kind then batch else state.batch other := by
  cases kind <;> cases other <;> rfl

theorem batch_append :
    (state.append kind record).batch other =
      if other = kind then ((state.batch kind).push record).2 else state.batch other :=
  batch_setBatch

theorem batch_clear :
    (state.clear kind).batch other = if other = kind then .empty kind else state.batch other :=
  batch_setBatch

theorem batch_restore :
    (state.restore kind records).batch other =
      if other = kind then (state.batch kind).restore records else state.batch other :=
  batch_setBatch

@[simp] theorem batch_issue : state.issue.batch kind = state.batch kind := by
  cases kind <;> rfl

@[simp] theorem ranking_setBatch : (state.setBatch kind batch).ranking = state.ranking := by
  cases kind <;> rfl

@[simp] theorem ranking_append : (state.append kind record).ranking = state.ranking := ranking_setBatch

@[simp] theorem ranking_clear : (state.clear kind).ranking = state.ranking := ranking_setBatch

@[simp] theorem ranking_restore : (state.restore kind records).ranking = state.ranking :=
  ranking_setBatch

/-- Each batch is of its own kind, and so are the records in it. -/
def Sound (state : State) : Prop := ∀ kind, (state.batch kind).OfKind kind

theorem start_sound : start.Sound := by
  intro kind
  cases kind <;> exact Batch.empty_ofKind _

theorem Sound.append (sound : state.Sound) : (state.append kind record).Sound := by
  intro other
  rw [batch_append]
  split
  · rename_i same
    subst same
    exact Batch.push_ofKind (sound _)
  · exact sound other

/-- A record of the kind is added at the end of its batch, and is not refused. -/
theorem Sound.push_eq (sound : state.Sound) (own : record.kind = kind) :
    (state.batch kind).push record =
      (.ok ((state.batch kind).records.length + 1), ⟨kind, (state.batch kind).records ++ [record]⟩) := by
  have mine := (sound kind).1
  rw [Batch.push_own (own.trans mine.symm), mine]

theorem Sound.records_append (sound : state.Sound) (own : record.kind = kind) :
    ((state.append kind record).batch kind).records = (state.batch kind).records ++ [record] := by
  rw [batch_append, if_pos rfl, sound.push_eq own]

theorem Sound.clear (sound : state.Sound) : (state.clear kind).Sound := by
  intro other
  rw [batch_clear]
  split
  · rename_i same
    subst same
    exact Batch.empty_ofKind _
  · exact sound other

theorem Sound.restore (sound : state.Sound) (same : ∀ record ∈ records, record.kind = kind) :
    (state.restore kind records).Sound := by
  intro other
  rw [batch_restore]
  split
  · rename_i own
    subst own
    refine ⟨(sound _).1, fun record member => ?_⟩
    rcases List.mem_append.mp member with returned | waiting
    · exact same record returned
    · exact (sound _).2 record waiting
  · exact sound other

end BookCatalog.Web.State
