import BookCatalog.Proofs.Command.Assignment
import BookCatalog.Proofs.Text.Split

/-!
The record that assignments make up. Each assignment is taken apart at its first equals sign, so values may hold
more of them, and stores its value over what an earlier one stored; the last assignment of an attribute stays. The
first one that is none decides the failure. So a record of texts, spelled out attribute by attribute, is made up again
in whatever order the assignments are given.
-/
namespace BookCatalog

open Json

/-- No attribute has an equals sign in its name or blanks around it. -/
theorem Kind.plain_of_mem_attributes {kind : Kind} {key : String} (known : key ∈ kind.attributes) :
    '=' ∉ key.toList ∧ Text.trim key = key := by
  have all : ∀ kind, ∀ key ∈ Kind.attributes kind, '=' ∉ key.toList ∧ Text.trim key = key := by
    intro kind
    cases kind <;> decide +kernel
  exact all kind key known

/-- Two records that keep to the vocabulary of a kind are the same if the same is found in them. -/
theorem Record.Fits.ext {kind : Kind} {record other : Record} (fits : record.Fits kind) (fits' : other.Fits kind)
    (same : ∀ key, record.get? key = other.get? key) : record = other := by
  have kinds := fits.kind_eq.trans fits'.kind_eq.symm
  have attributes := fits.ordered.ext fits'.ordered same
  cases record
  cases other
  cases kinds
  cases attributes
  rfl

namespace Command

/-- An assignment names an attribute in front of its first equals sign, with blanks around it or without, and all
that stands behind is the value. -/
def Assigns (assignment key value : String) : Prop :=
  ∃ named, '=' ∉ named.toList ∧ assignment = named ++ "=" ++ value ∧ Text.trim named = key

/-- The last of the assignments that name an attribute has a value. -/
def LastAssigned (assignments : List String) (key value : String) : Prop :=
  ∃ front assignment back, assignments = front ++ assignment :: back ∧ Assigns assignment key value ∧
    ∀ later ∈ back, ∀ other, ¬ Assigns later key other

/-- What is wrong with an assignment: it has no equals sign, or its attribute is none of the kind's. -/
inductive Offends (kind : Kind) (assignment : String) : Failure → Prop where
  | noSign (absent : '=' ∉ assignment.toList) : Offends kind assignment (.notAnAssignment assignment)
  | unknown {key value : String} (assigns : Assigns assignment key value) (outside : key ∉ kind.attributes) :
      Offends kind assignment (.catalog (.unknownAttribute kind key))

/-- A stored value as an assignment. -/
def spelled (field : String × Json) : String := field.1 ++ "=" ++ field.2.plain

variable {kind : Kind} {record grown : Record} {assignment key value : String} {assignments : List String}
  {failure : Failure}

/-! ## One assignment -/

theorem splitOnce_of_assigns (assigns : Assigns assignment key value) :
    ∃ named, Text.splitOnce '=' assignment = some (named, value) ∧ Text.trim named = key := by
  obtain ⟨named, absent, shape, trimmed⟩ := assigns
  exact ⟨named, Text.splitOnce_eq_some_iff.mpr ⟨absent, shape⟩, trimmed⟩

theorem assigns_of_splitOnce {named : String} (split : Text.splitOnce '=' assignment = some (named, value)) :
    Assigns assignment (Text.trim named) value := by
  obtain ⟨absent, shape⟩ := Text.splitOnce_eq_some_iff.mp split
  exact ⟨named, absent, shape, rfl⟩

theorem names_iff : Names assignment key ↔ ∃ value, Assigns assignment key value := by
  constructor
  · rintro ⟨named, value, split, rfl⟩
    exact ⟨value, assigns_of_splitOnce split⟩
  · rintro ⟨value, assigns⟩
    obtain ⟨named, split, trimmed⟩ := splitOnce_of_assigns assigns
    exact ⟨named, value, split, trimmed⟩

theorem isAssignment_iff :
    IsAssignment kind assignment ↔ ∃ key value, Assigns assignment key value ∧ key ∈ kind.attributes := by
  simp only [IsAssignment, names_iff, ← exists_and_right]

theorem Assigns.unique {other held : String} (assigns : Assigns assignment key value)
    (assigns' : Assigns assignment other held) : key = other ∧ value = held := by
  obtain ⟨named, split, rfl⟩ := splitOnce_of_assigns assigns
  obtain ⟨named', split', rfl⟩ := splitOnce_of_assigns assigns'
  cases split.symm.trans split'
  exact ⟨rfl, rfl⟩

theorem assign_eq_ok_iff : assign record assignment = .ok grown ↔
    ∃ key value, Assigns assignment key value ∧ key ∈ record.kind.attributes ∧
      grown = ⟨record.kind, record.attributes.insert key (.text value)⟩ := by
  constructor
  · intro done
    unfold assign at done
    split at done
    · cases done
    · rename_i named value split
      obtain ⟨known, shape⟩ := Record.set_eq_ok_iff.mp (mapError_eq_ok_iff.mp done)
      exact ⟨_, value, assigns_of_splitOnce split, known, shape⟩
  · rintro ⟨key, value, assigns, known, shape⟩
    obtain ⟨named, split, rfl⟩ := splitOnce_of_assigns assigns
    simp only [assign, split]
    exact mapError_eq_ok_iff.mpr (Record.set_eq_ok_iff.mpr ⟨known, shape⟩)

theorem assign_eq_error_iff : assign record assignment = .error failure ↔ Offends record.kind assignment failure := by
  constructor
  · intro failed
    unfold assign at failed
    split at failed
    · rename_i split
      cases failed
      exact .noSign (Text.splitOnce_eq_none_iff.mp split)
    · rename_i named value split
      obtain ⟨cause, refused, rfl⟩ := mapError_eq_error_iff.mp failed
      obtain ⟨outside, rfl⟩ := Record.set_eq_error_iff.mp refused
      exact .unknown (assigns_of_splitOnce split) outside
  · rintro (absent | ⟨assigns, outside⟩)
    · rw [assign, Text.splitOnce_eq_none_iff.mpr absent]
    · obtain ⟨named, split, rfl⟩ := splitOnce_of_assigns assigns
      simp only [assign, split, Record.set_eq_error_iff.mpr ⟨outside, rfl⟩]
      rfl

/-! ## A list of assignments -/

/-- The last assignment of an attribute is among the later ones, or it is the first and no later one names it. -/
theorem lastAssigned_cons : LastAssigned (assignment :: assignments) key value ↔
    LastAssigned assignments key value ∨
      Assigns assignment key value ∧ ∀ later ∈ assignments, ∀ other, ¬ Assigns later key other := by
  constructor
  · rintro ⟨front, last, back, shape, assigns, later⟩
    cases front with
    | nil =>
      obtain ⟨rfl, rfl⟩ := List.cons.inj shape
      exact .inr ⟨assigns, later⟩
    | cons first front =>
      obtain ⟨rfl, rfl⟩ := List.cons.inj shape
      exact .inl ⟨front, last, back, rfl, assigns, later⟩
  · rintro (⟨front, last, back, rfl, assigns, later⟩ | ⟨assigns, later⟩)
    · exact ⟨assignment :: front, last, back, rfl, assigns, later⟩
    · exact ⟨[], assignment, assignments, rfl, assigns, later⟩

/-- An attribute that is named has a last assignment. -/
theorem exists_lastAssigned (named : ∃ assignment ∈ assignments, ∃ value, Assigns assignment key value) :
    ∃ value, LastAssigned assignments key value := by
  induction assignments with
  | nil => simp at named
  | cons assignment assignments ih =>
    by_cases later : ∃ assignment ∈ assignments, ∃ value, Assigns assignment key value
    · obtain ⟨value, last⟩ := ih later
      exact ⟨value, lastAssigned_cons.mpr (.inl last)⟩
    · obtain ⟨other, member, value, assigns⟩ := named
      rcases List.mem_cons.mp member with rfl | among
      · refine ⟨value, lastAssigned_cons.mpr (.inr ⟨assigns, fun assignment member value assigns => ?_⟩)⟩
        exact later ⟨assignment, member, value, assigns⟩
      · exact absurd ⟨other, among, value, assigns⟩ later

/-- What a record holds after a run of assignments: under each attribute the value of its last assignment, and where
there is none what it held before. -/
theorem foldlM_assign_holds (done : assignments.foldlM assign record = .ok grown) (key : String) (held : Json) :
    grown.get? key = some held ↔ (∃ value, held = .text value ∧ LastAssigned assignments key value) ∨
      (∀ assignment ∈ assignments, ∀ other, ¬ Assigns assignment key other) ∧ record.get? key = some held := by
  induction assignments generalizing record with
  | nil =>
    cases done
    simp [LastAssigned]
  | cons assignment assignments ih =>
    rw [List.foldlM_cons] at done
    obtain ⟨next, first, rest⟩ := bind_ok done
    obtain ⟨named, given, assigns, known, rfl⟩ := assign_eq_ok_iff.mp first
    have own : ∀ key value, Assigns assignment key value ↔ key = named ∧ value = given := by
      intro key value
      exact ⟨fun assigns' => assigns'.unique assigns, fun ⟨same, same'⟩ => same ▸ same' ▸ assigns⟩
    rw [ih rest, Record.get?, Fields.get?_insert]
    simp only [lastAssigned_cons, own, List.forall_mem_cons]
    by_cases same : key = named
    · subst same
      rw [if_pos rfl]
      constructor
      · rintro (⟨value, shape, last⟩ | ⟨unassigned, shape⟩)
        · exact .inl ⟨value, shape, .inl last⟩
        · exact .inl ⟨given, (Option.some.inj shape).symm, .inr ⟨⟨rfl, rfl⟩, unassigned⟩⟩
      · rintro (⟨value, shape, last | ⟨⟨-, rfl⟩, unassigned⟩⟩ | ⟨⟨unassigned, -⟩, -⟩)
        · exact .inl ⟨value, shape, last⟩
        · exact .inr ⟨unassigned, congrArg some shape.symm⟩
        · exact absurd ⟨rfl, rfl⟩ (unassigned given)
    · simp [same, Record.get?]

/-- A run of assignments keeps the attributes in order. -/
theorem foldlM_assign_fits (done : assignments.foldlM assign record = .ok grown) (fits : record.Fits kind) :
    grown.Fits kind := by
  induction assignments generalizing record with
  | nil =>
    cases done
    exact fits
  | cons assignment assignments ih =>
    rw [List.foldlM_cons] at done
    obtain ⟨next, first, rest⟩ := bind_ok done
    obtain ⟨named, given, assigns, known, rfl⟩ := assign_eq_ok_iff.mp first
    exact ih rest (fits.set (Record.set_eq_ok_iff.mpr ⟨known, rfl⟩))

/-- A run of assignments fails at the first one that is none, and as that one does. -/
theorem foldlM_assign_eq_error_iff : assignments.foldlM assign record = .error failure ↔
    ∃ front offending back, assignments = front ++ offending :: back ∧
      (∀ earlier ∈ front, IsAssignment record.kind earlier) ∧ Offends record.kind offending failure := by
  induction assignments generalizing record with
  | nil => simp [pure, Except.pure]
  | cons assignment assignments ih =>
    rw [List.foldlM_cons]
    cases first : assign record assignment with
    | error cause =>
      constructor
      · intro failed
        cases failed
        exact ⟨[], assignment, assignments, rfl, by simp, assign_eq_error_iff.mp first⟩
      · rintro ⟨front, offending, back, shape, valid, offends⟩
        cases front with
        | nil =>
          obtain ⟨rfl, rfl⟩ := List.cons.inj shape
          rw [← first, assign_eq_error_iff.mpr offends]
          rfl
        | cons other front =>
          obtain ⟨rfl, rfl⟩ := List.cons.inj shape
          obtain ⟨grown, done⟩ := exists_assign (valid assignment List.mem_cons_self)
          rw [first] at done
          cases done
    | ok next =>
      have same := (assign_ok first).2.1
      refine ih.trans ?_
      rw [same]
      constructor
      · rintro ⟨front, offending, back, rfl, valid, offends⟩
        exact ⟨assignment :: front, offending, back, rfl,
          List.forall_mem_cons.mpr ⟨(assign_ok first).1, valid⟩, offends⟩
      · rintro ⟨front, offending, back, shape, valid, offends⟩
        cases front with
        | nil =>
          obtain ⟨rfl, rfl⟩ := List.cons.inj shape
          rw [assign_eq_error_iff.mpr offends] at first
          cases first
        | cons other front =>
          obtain ⟨rfl, rfl⟩ := List.cons.inj shape
          exact ⟨front, offending, back, rfl, fun earlier member => valid earlier (List.mem_cons_of_mem _ member),
            offends⟩

/-- What a record is found to hold is the value of the last assignment, and nothing without one. -/
theorem get?_of_readAssignments (done : readAssignments kind assignments = .ok record) (key : String) (held : Json) :
    record.get? key = some held ↔ ∃ value, held = .text value ∧ LastAssigned assignments key value := by
  rw [foldlM_assign_holds done]
  simp [Record.get?, Record.empty, Fields.get?]

theorem fits_of_readAssignments (done : readAssignments kind assignments = .ok record) : record.Fits kind :=
  foldlM_assign_fits done Record.Reached.empty.fits

/-! ## Spelling a record out -/

/-- A stored text, spelled out, is an assignment of it. -/
theorem assigns_spelled_iff {text other held : String} (known : key ∈ kind.attributes) :
    Assigns (spelled (key, .text text)) other held ↔ other = key ∧ held = text := by
  obtain ⟨absent, trimmed⟩ := Kind.plain_of_mem_attributes known
  have own : Assigns (spelled (key, .text text)) key text := ⟨key, absent, by simp [spelled, plain], trimmed⟩
  constructor
  · intro assigns
    exact assigns.unique own
  · rintro ⟨rfl, rfl⟩
    exact own

/-- Each assignment of a record that is spelled out is one of a text that it holds. -/
theorem exists_spelled (fits : record.Fits kind) (texts : ∀ field ∈ record.attributes, ∃ text, field.2 = .text text)
    (member : assignment ∈ record.entries.map spelled) :
    ∃ key text, assignment = spelled (key, .text text) ∧ key ∈ kind.attributes ∧
      record.get? key = some (.text text) := by
  obtain ⟨⟨key, value⟩, listed, rfl⟩ := List.mem_map.mp member
  obtain ⟨known, found⟩ := Record.mem_entries.mp listed
  obtain ⟨text, rfl⟩ := texts _ (fits.ordered.get?_eq_some_iff.mp found)
  exact ⟨key, text, rfl, fits.kind_eq ▸ known, found⟩

/-- In whatever order a record of texts is spelled out, the last assignment of an attribute has the text that the
record holds. -/
theorem lastAssigned_spelled_iff (fits : record.Fits kind)
    (texts : ∀ field ∈ record.attributes, ∃ text, field.2 = .text text)
    (all : assignments.Perm (record.entries.map spelled)) :
    LastAssigned assignments key value ↔ record.get? key = some (.text value) := by
  have held : ∀ value, LastAssigned assignments key value → record.get? key = some (.text value) := by
    rintro value ⟨front, assignment, back, shape, assigns, -⟩
    have member : assignment ∈ assignments := by simp [shape]
    obtain ⟨own, text, rfl, known, found⟩ := exists_spelled fits texts (all.mem_iff.mp member)
    obtain ⟨rfl, rfl⟩ := (assigns_spelled_iff known).mp assigns
    exact found
  refine ⟨held value, fun found => ?_⟩
  have known : key ∈ kind.attributes :=
    fits.known key (List.mem_map_of_mem (fits.ordered.get?_eq_some_iff.mp found))
  have listed : spelled (key, .text value) ∈ assignments :=
    all.mem_iff.mpr (List.mem_map_of_mem (Record.mem_entries.mpr ⟨fits.kind_eq ▸ known, found⟩))
  obtain ⟨other, last⟩ := exists_lastAssigned ⟨_, listed, value, (assigns_spelled_iff known).mpr ⟨rfl, rfl⟩⟩
  cases (held other last).symm.trans found
  exact last

/-- A record of texts is made up again from its attributes, spelled out in any order. -/
theorem readAssignments_spelled (fits : record.Fits kind)
    (texts : ∀ field ∈ record.attributes, ∃ text, field.2 = .text text)
    (all : assignments.Perm (record.entries.map spelled)) : readAssignments kind assignments = .ok record := by
  have valid : ∀ assignment ∈ assignments, IsAssignment kind assignment := by
    intro assignment member
    obtain ⟨key, text, rfl, known, -⟩ := exists_spelled fits texts (all.mem_iff.mp member)
    exact isAssignment_iff.mpr ⟨key, text, (assigns_spelled_iff known).mpr ⟨rfl, rfl⟩, known⟩
  obtain ⟨made, done⟩ := exists_readAssignments_iff.mpr valid
  have same : ∀ key held, made.get? key = some held ↔ record.get? key = some held := by
    intro key held
    rw [get?_of_readAssignments done]
    simp only [lastAssigned_spelled_iff fits texts all]
    constructor
    · rintro ⟨value, rfl, found⟩
      exact found
    · intro found
      obtain ⟨text, rfl⟩ := texts _ (fits.ordered.get?_eq_some_iff.mp found)
      exact ⟨text, rfl, found⟩
  rw [done, (fits_of_readAssignments done).ext fits fun key => Option.ext fun held => same key held]

/-- **The record that assignments make up.** There is one exactly if each assignment has an equals sign and an
attribute of the kind in front of the first one. The record has the attributes that are named and no others, each
with the text behind the first equals sign of its last assignment, just as it is. Otherwise the failure is that of
the first assignment that is none. A record of texts comes back from its attributes spelled out, in their own order
or in any other. -/
theorem assignments_make_up_record (kind : Kind) (assignments : List String) :
    ((∃ record, readAssignments kind assignments = .ok record) ↔
        ∀ assignment ∈ assignments, ∃ key value, Assigns assignment key value ∧ key ∈ kind.attributes) ∧
      (∀ record, readAssignments kind assignments = .ok record → record.Fits kind ∧
        ∀ key held, record.get? key = some held ↔
          ∃ value, held = .text value ∧ LastAssigned assignments key value) ∧
      (∀ failure, readAssignments kind assignments = .error failure ↔
        ∃ front offending back, assignments = front ++ offending :: back ∧
          (∀ earlier ∈ front, ∃ key value, Assigns earlier key value ∧ key ∈ kind.attributes) ∧
          Offends kind offending failure) ∧
      ∀ record, record.Fits kind → (∀ field ∈ record.attributes, ∃ text, field.2 = .text text) →
        ∀ shuffled, shuffled.Perm (record.entries.map spelled) → readAssignments kind shuffled = .ok record := by
  simp only [← isAssignment_iff]
  refine ⟨exists_readAssignments_iff, fun record done => ?_, fun failure => foldlM_assign_eq_error_iff,
    fun record fits texts shuffled all => readAssignments_spelled fits texts all⟩
  exact ⟨fits_of_readAssignments done, get?_of_readAssignments done⟩

/-- A later assignment replaces an earlier one with blanks around the name, values keep their equals signs and line
breaks, and the record comes back from its attributes in reverse order. -/
theorem assignments_make_up_record_replaced :
    let assignments := ["title=Dune", " ISBN\t= 1", "title=a=b\n author=c"]
    let record : Record := ⟨.book, [("ISBN", .text " 1"), ("title", .text "a=b\n author=c")]⟩
    readAssignments .book assignments = .ok record ∧ LastAssigned assignments "title" "a=b\n author=c" ∧
      record.Fits .book ∧ readAssignments .book (record.entries.map spelled).reverse = .ok record ∧
      readAssignments .book ["title", "name=c"] = .error (.notAnAssignment "title") := by
  intro assignments record
  have done : readAssignments .book assignments = .ok record := rfl
  obtain ⟨-, made, -, -⟩ := assignments_make_up_record .book assignments
  obtain ⟨fits, holds⟩ := made record done
  obtain ⟨value, same, last⟩ := (holds "title" (.text "a=b\n author=c")).mp rfl
  cases same
  obtain ⟨-, -, refused, again⟩ := assignments_make_up_record .book ["title", "name=c"]
  have texts : ∀ field ∈ record.attributes, ∃ text, field.2 = .text text := by
    exact List.forall_mem_cons.mpr ⟨⟨_, rfl⟩, List.forall_mem_singleton.mpr ⟨_, rfl⟩⟩
  refine ⟨done, last, fits, again record fits texts _ (List.reverse_perm _), (refused _).mpr ?_⟩
  exact ⟨[], "title", ["name=c"], rfl, by simp, .noSign (by decide)⟩

end Command
end BookCatalog
