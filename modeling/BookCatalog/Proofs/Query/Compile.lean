import Mathlib.Data.List.Infix
import BookCatalog.Query.Compile
import BookCatalog.Proofs.Field
import BookCatalog.Proofs.Text.Split

/-!
How much of a query its text tells. Kind and field of the first clause are always told, since no kind
has a point in its name and no field a colon. Where the first value ends is told as long as no value
holds a joint, which is what announces a second clause. The capital letter that a joint starts with
is nowhere else in it, so two joints cannot overlap, and none can begin in a value and end behind it.
-/
namespace BookCatalog

/-! ## The text of a clause -/

theorem Clause.toList_compile (clause : Clause) :
    clause.compile.toList = clause.kind.name.toList ++
      '.' :: (clause.field.key.toList ++ ':' :: clause.value.toList) := by
  simp [Clause.compile]

/-- Whatever follows a clause, the kind in front is read off the text. -/
theorem Clause.kindOf_text {clause : Clause} {behind : List Char} {text : String}
    (begins : text.toList = clause.compile.toList ++ behind) : Query.kindOf text = .ok clause.kind := by
  rw [toList_compile, List.append_assoc, List.cons_append] at begins
  simp only [Query.kindOf, Text.splitOnce, begins, Text.splitChars_append clause.kind.point_notMem_name,
    Option.map_some, String.ofList_toList, Kind.ofName?_name]

theorem Query.kindOf_compile (query : Query) : Query.kindOf query.compile = .ok query.kind := by
  cases query with
  | single clause => exact Clause.kindOf_text (List.append_nil _).symm
  | compound left operator right sameKind =>
    have begins : (Query.compound left operator right sameKind).compile.toList =
        left.compile.toList ++ (operator.word.toList ++ right.compile.toList) := by
      rw [compile, String.toList_append, String.toList_append, List.append_assoc]
    exact Clause.kindOf_text begins

/-- Whatever follows two clauses, equal texts begin with the same field, and behind it they go on
alike. -/
theorem Clause.field_of_text {clause other : Clause} {behind behind' : List Char}
    (same : clause.compile.toList ++ behind = other.compile.toList ++ behind') :
    clause.field = other.field ∧ clause.value.toList ++ behind = other.value.toList ++ behind' := by
  simp only [toList_compile, List.append_assoc, List.cons_append] at same
  obtain ⟨names, same⟩ := Text.separator_in_place clause.kind.point_notMem_name
    other.kind.point_notMem_name same
  obtain ⟨keys, same⟩ := Text.separator_in_place clause.field.colon_notMem_key
    other.field.colon_notMem_key same
  have kinds : clause.kind = other.kind := Kind.name_injective (String.toList_inj.mp names)
  exact ⟨Field.key_injective kinds (String.toList_inj.mp keys), same⟩

theorem Clause.compile_injective {clause other : Clause} (same : clause.compile = other.compile) :
    clause = other := by
  have texts : clause.compile.toList ++ [] = other.compile.toList ++ [] := by rw [same]
  obtain ⟨fields, values⟩ := field_of_text texts
  have values : clause.value = other.value := String.toList_inj.mp (by simpa using values)
  cases clause
  cases other
  simp_all

/-! ## Joints -/

/-- What stands between the values of two clauses. -/
def joint (operator : Operator) (kind : Kind) (key : String) : String :=
  operator.word ++ kind.name ++ "." ++ key ++ ":"

/-- A value in which no second clause of the kind seems to begin. -/
def IsClean (kind : Kind) (value : String) : Prop :=
  ∀ operator, ∀ key ∈ kind.attributes, ¬ (joint operator kind key).toList <:+: value.toList

/-- A clause whose value is clean for its kind. -/
abbrev Clause.IsClean (clause : Clause) : Prop := BookCatalog.IsClean clause.kind clause.value

/-- The clauses of a query. -/
def Query.clauses : Query → List Clause
  | .single clause => [clause]
  | .compound left _ right _ => [left, right]

instance (kind : Kind) (value : String) : Decidable (IsClean kind value) :=
  decidable_of_iff (∀ operator ∈ [Operator.and, .or], ∀ key ∈ kind.attributes,
      ¬ (joint operator kind key).toList <:+: value.toList) <| by
    constructor
    · intro listed operator
      exact listed operator (by cases operator <;> simp)
    · intro clean operator _
      exact clean operator

/-- A query of which all values are clean. -/
def Query.IsClean (query : Query) : Prop := ∀ clause ∈ query.clauses, clause.IsClean

instance (query : Query) : Decidable query.IsClean :=
  inferInstanceAs (Decidable (∀ clause ∈ query.clauses, clause.IsClean))

/-- Whether an operator starts with a letter. -/
def startsOperator (c : Char) : Bool := c == 'A' || c == 'O'

theorem Query.toList_compile_compound {left right : Clause} {operator : Operator}
    (sameKind : left.kind = right.kind) :
    (Query.compound left operator right sameKind).compile.toList = left.compile.toList ++
      ((joint operator left.kind right.field.key).toList ++ right.value.toList) := by
  simp [Query.compile, joint, right.toList_compile, sameKind]

theorem Kind.no_start_in_name (kind : Kind) : ∀ c ∈ kind.name.toList, startsOperator c = false := by
  have free : kind.name.toList.any startsOperator = false := by cases kind <;> decide
  simpa using free

theorem Field.no_start_in_key (field : Field) : ∀ c ∈ field.key.toList, startsOperator c = false := by
  have free : field.key.toList.any startsOperator = false := by
    rcases field with field | field <;> cases field <;> decide
  simpa using free

/-- The letter that a joint starts with is nowhere else in it. -/
theorem joint_starts_once (operator : Operator) (field : Field) :
    ∃ letter rest, (joint operator field.kind field.key).toList = letter :: rest ∧
      startsOperator letter = true ∧ ∀ c ∈ rest, startsOperator c = false := by
  have behind : ∀ c ∈ field.kind.name.toList ++ '.' :: (field.key.toList ++ [':']),
      startsOperator c = false := by
    intro c member
    simp only [List.mem_append, List.mem_cons, List.not_mem_nil, or_false] at member
    rcases member with named | rfl | keyed | rfl
    · exact field.kind.no_start_in_name c named
    · rfl
    · exact field.no_start_in_key c keyed
    · rfl
  cases operator with
  | and =>
    exact ⟨'A', 'N' :: 'D' :: _, by simp [joint, Operator.word], rfl,
      List.forall_mem_cons.mpr ⟨rfl, List.forall_mem_cons.mpr ⟨rfl, behind⟩⟩⟩
  | or =>
    exact ⟨'O', 'R' :: _, by simp [joint, Operator.word], rfl, List.forall_mem_cons.mpr ⟨rfl, behind⟩⟩

/-- The operator and the field of a joint can be read off any text that it begins. -/
theorem joint_injective {operator operator' : Operator} {field field' : Field}
    {behind behind' : List Char}
    (same : (joint operator field.kind field.key).toList ++ behind =
      (joint operator' field'.kind field'.key).toList ++ behind') :
    operator = operator' ∧ field = field' ∧ behind = behind' := by
  have words : operator = operator' := by
    cases operator with
    | and => cases operator' with
      | and => rfl
      | or => simp [joint, Operator.word] at same
    | or => cases operator' with
      | and => simp [joint, Operator.word] at same
      | or => rfl
  subst words
  have texts : (⟨field, ""⟩ : Clause).compile.toList ++ behind =
      (⟨field', ""⟩ : Clause).compile.toList ++ behind' := by
    simpa [joint, Clause.toList_compile, Clause.kind] using same
  obtain ⟨fields, rest⟩ := Clause.field_of_text texts
  exact ⟨rfl, fields, by simpa using rest⟩

section Overlap

variable {starts : Char → Bool} {front front' gap piece piece' behind behind' : List Char}
  {letter letter' : Char} {rest rest' : List Char}

/-- If two pieces stand in one text, the second behind the start of the first, and both start with a
letter that is nowhere else in them, then the first ends before the second starts. -/
theorem ends_in_gap (first : piece = letter :: rest) (once : ∀ c ∈ rest, starts c = false)
    (second : piece' = letter' :: rest') (opens : starts letter' = true) (late : gap ≠ [])
    (same : piece ++ behind = gap ++ (piece' ++ behind')) : piece <+: gap := by
  rcases List.append_eq_append_iff.mp same with ⟨more, whole, -⟩ | ⟨cut, whole, tail⟩
  · exact ⟨more, whole.symm⟩
  · cases cut with
    | nil => simp [whole]
    | cons c cut =>
      obtain ⟨g, gap, rfl⟩ := List.exists_cons_of_ne_nil late
      have inside : c ∈ rest := by
        rw [first, List.cons_append] at whole
        rw [(List.cons.inj whole).2]
        simp
      have start : letter' = c := by
        rw [second, List.cons_append, List.cons_append] at tail
        exact (List.cons.inj tail).1
      have closed := once c inside
      rw [← start, opens] at closed
      contradiction

/-- Two such pieces stand in one place, or one of them lies in front of the other. -/
theorem in_place_or_in_front (first : piece = letter :: rest) (opens : starts letter = true)
    (once : ∀ c ∈ rest, starts c = false) (second : piece' = letter' :: rest')
    (opens' : starts letter' = true) (once' : ∀ c ∈ rest', starts c = false)
    (same : front ++ (piece ++ behind) = front' ++ (piece' ++ behind')) :
    front = front' ∨ piece <:+: front' ∨ piece' <:+: front := by
  rcases List.append_eq_append_iff.mp same with ⟨gap, rfl, tails⟩ | ⟨gap, rfl, tails⟩
  · by_cases late : gap = []
    · exact .inl (by simp [late])
    · have inside := (ends_in_gap first once second opens' late tails).isInfix
      exact .inr (.inl (inside.trans (List.suffix_append front gap).isInfix))
  · by_cases late : gap = []
    · exact .inl (by simp [late])
    · have inside := (ends_in_gap second once' first opens late tails).isInfix
      exact .inr (.inr (inside.trans (List.suffix_append front' gap).isInfix))

end Overlap

/-! ## Ambiguity -/

variable {clause left right : Clause} {operator : Operator}

/-- Two clauses have the text of a single one exactly when its value holds a joint. -/
theorem not_isClean_iff : ¬ clause.IsClean ↔ ∃ left operator right sameKind,
    (Query.compound left operator right sameKind).compile = (Query.single clause).compile := by
  constructor
  · intro embedded
    simp only [Clause.IsClean, IsClean, not_forall, not_not] at embedded
    obtain ⟨operator, key, member, front, behind, whole⟩ := embedded
    obtain ⟨field, kinds, rfl⟩ := Kind.mem_attributes_iff.mp member
    have sameKind : Clause.kind ⟨clause.field, .ofList front⟩ = Clause.kind ⟨field, .ofList behind⟩ :=
      kinds.symm
    refine ⟨⟨clause.field, .ofList front⟩, operator, ⟨field, .ofList behind⟩, sameKind, ?_⟩
    apply String.toList_inj.mp
    rw [Query.toList_compile_compound]
    simp only [Query.compile, Clause.toList_compile, ← whole, String.toList_ofList]
    simp [Clause.kind]
  · rintro ⟨left, operator, right, sameKind, same⟩ clean
    have texts : clause.compile.toList ++ [] = left.compile.toList ++
        ((joint operator left.kind right.field.key).toList ++ right.value.toList) := by
      rw [← Query.toList_compile_compound sameKind, same]
      simp [Query.compile]
    obtain ⟨fields, values⟩ := Clause.field_of_text texts
    have kinds : clause.kind = left.kind := congrArg Field.kind fields
    have known : right.field.key ∈ clause.kind.attributes :=
      Kind.mem_attributes_iff.mpr ⟨right.field, (kinds.trans sameKind).symm, rfl⟩
    apply clean operator right.field.key known
    exact ⟨left.value.toList, right.value.toList, by simpa [kinds] using values.symm⟩

/-- The text of two clauses tells both of them if the first value is clean. -/
theorem compound_of_compile {left' right' : Clause} {operator' : Operator}
    {sameKind : left.kind = right.kind} {sameKind' : left'.kind = right'.kind}
    (clean : left.IsClean) (clean' : left'.IsClean)
    (same : (Query.compound left operator right sameKind).compile =
      (Query.compound left' operator' right' sameKind').compile) :
    Query.compound left operator right sameKind = .compound left' operator' right' sameKind' := by
  have texts := congrArg String.toList same
  rw [Query.toList_compile_compound, Query.toList_compile_compound] at texts
  obtain ⟨fields, values⟩ := Clause.field_of_text texts
  have kinds : left.kind = left'.kind := congrArg Field.kind fields
  have known : right.field.key ∈ left'.kind.attributes :=
    Kind.mem_attributes_iff.mpr ⟨right.field, sameKind.symm.trans kinds, rfl⟩
  have known' : right'.field.key ∈ left.kind.attributes :=
    Kind.mem_attributes_iff.mpr ⟨right'.field, sameKind'.symm.trans kinds.symm, rfl⟩
  rw [sameKind, sameKind'] at values
  obtain ⟨letter, rest, first, opens, once⟩ := joint_starts_once operator right.field
  obtain ⟨letter', rest', second, opens', once'⟩ := joint_starts_once operator' right'.field
  rcases in_place_or_in_front first opens once second opens' once' values with level | inside | inside
  · rw [level, List.append_cancel_left_eq] at values
    obtain ⟨rfl, fields', rest⟩ := joint_injective values
    have lefts : left.value = left'.value := String.toList_inj.mp level
    have rights : right.value = right'.value := String.toList_inj.mp rest
    cases left
    cases left'
    cases right
    cases right'
    simp_all
  · rw [show right.field.kind = left'.kind from sameKind.symm.trans kinds] at inside
    exact absurd inside (clean' operator _ known)
  · rw [show right'.field.kind = left.kind from sameKind'.symm.trans kinds.symm] at inside
    exact absurd inside (clean operator' _ known')

/-- **Only a joint in a value makes a text ambiguous.** Two queries of which no value holds a joint of
its kind are equal if their texts are. A single clause whose value holds one always shares its text
with two clauses, and no other single clause does. -/
theorem text_ambiguous_only_by_joints :
    (∀ query other : Query, query.IsClean → other.IsClean → query.compile = other.compile →
      query = other) ∧
    ∀ clause : Clause, ¬ clause.IsClean ↔ ∃ left operator right sameKind,
      (Query.compound left operator right sameKind).compile = (Query.single clause).compile := by
  refine ⟨fun query other clean clean' same => ?_, fun clause => not_isClean_iff⟩
  cases query with
  | single clause =>
    cases other with
    | single clause' => rw [Clause.compile_injective same]
    | compound left operator right sameKind =>
      have embedded := not_isClean_iff.mpr ⟨left, operator, right, sameKind, same.symm⟩
      exact absurd (clean clause (by simp [Query.clauses])) embedded
  | compound left operator right sameKind =>
    cases other with
    | single clause =>
      have embedded := not_isClean_iff.mpr ⟨left, operator, right, sameKind, same⟩
      exact absurd (clean' clause (by simp [Query.clauses])) embedded
    | compound left' operator' right' sameKind' =>
      exact compound_of_compile (clean left (by simp [Query.clauses]))
        (clean' left' (by simp [Query.clauses])) same

/-- Values that end like an operator or begin like a joint are clean, and do not hide where the second
clause begins. -/
theorem text_tells_query_beside_operators :
    let query := Query.compound ⟨.book .title, "This OR"⟩ .or ⟨.book .author, "ANDbook"⟩ rfl
    query.IsClean ∧ query.compile = "book.title:This ORORbook.author:ANDbook" ∧
      ∀ other : Query, other.IsClean → other.compile = query.compile → other = query := by
  have clean : (Query.compound ⟨.book .title, "This OR"⟩ .or ⟨.book .author, "ANDbook"⟩ rfl).IsClean := by
    decide +kernel
  exact ⟨clean, rfl, fun other clean' same =>
    text_ambiguous_only_by_joints.1 other _ clean' clean same⟩

end BookCatalog
