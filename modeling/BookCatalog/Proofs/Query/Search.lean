import BookCatalog.Command.Arguments
import BookCatalog.Proofs.Query.Compile
import BookCatalog.Proofs.Text.Blank
import BookCatalog.Web.Handlers

/-!
Searches as people state them, on a command line or in a request to the web front end. Both ways of
stating a search are held to one rule of what becomes of it, which decides the query and also the error,
so two statements of one search never come to different ends.
-/
namespace BookCatalog

/-- A clause asks for a value in the attribute of a kind. -/
structure Clause.AsksFor (clause : Clause) (kind : Kind) (key value : String) : Prop where
  kind_eq : clause.kind = kind
  key_eq : clause.field.key = key
  value_eq : clause.value = value

/-- What becomes of a search with one clause. -/
inductive Selects (kind : Kind) (key value : String) : Except Error Query → Prop where
  | unknown (outside : key ∉ kind.attributes) : Selects kind key value (.error (.unknownField kind key))
  | single {clause : Clause} (asks : clause.AsksFor kind key value) :
      Selects kind key value (.ok (.single clause))

/-- What becomes of a search with two clauses: the first attribute outside the vocabulary is the error,
and if there is none, the query has both clauses and the operator. -/
inductive Joins (kind : Kind) (key value : String) (operator : Operator) (key2 value2 : String) :
    Except Error Query → Prop where
  | unknownFirst (outside : key ∉ kind.attributes) :
      Joins kind key value operator key2 value2 (.error (.unknownField kind key))
  | unknownSecond (inside : key ∈ kind.attributes) (outside : key2 ∉ kind.attributes) :
      Joins kind key value operator key2 value2 (.error (.unknownField kind key2))
  | compound {left right : Clause} (first : left.AsksFor kind key value)
      (second : right.AsksFor kind key2 value2) (sameKind : left.kind = right.kind) :
      Joins kind key value operator key2 value2 (.ok (.compound left operator right sameKind))

variable {kind : Kind} {key value key2 value2 text : String} {operator : Operator}
  {result other : Except Error Query}

/-! ## The rule decides -/

theorem Clause.AsksFor.unique {clause clause' : Clause} (asks : clause.AsksFor kind key value)
    (asks' : clause'.AsksFor kind key value) : clause = clause' := by
  have fields : clause.field = clause'.field :=
    Field.key_injective (asks.kind_eq.trans asks'.kind_eq.symm) (asks.key_eq.trans asks'.key_eq.symm)
  have values : clause.value = clause'.value := asks.value_eq.trans asks'.value_eq.symm
  cases clause
  cases clause'
  simp_all

theorem Clause.AsksFor.mem_attributes {clause : Clause} (asks : clause.AsksFor kind key value) :
    key ∈ kind.attributes :=
  Kind.mem_attributes_iff.mpr ⟨clause.field, asks.kind_eq, asks.key_eq⟩

theorem Selects.unique (selects : Selects kind key value result) (selects' : Selects kind key value other) :
    result = other := by
  cases selects with
  | unknown outside =>
    cases selects' with
    | unknown => rfl
    | single asks => exact absurd asks.mem_attributes outside
  | single asks =>
    cases selects' with
    | unknown outside => exact absurd asks.mem_attributes outside
    | single asks' => rw [asks.unique asks']

theorem Joins.unique (joins : Joins kind key value operator key2 value2 result)
    (joins' : Joins kind key value operator key2 value2 other) : result = other := by
  cases joins with
  | unknownFirst outside =>
    cases joins' with
    | unknownFirst => rfl
    | unknownSecond inside => exact absurd inside outside
    | compound first => exact absurd first.mem_attributes outside
  | unknownSecond inside outside =>
    cases joins' with
    | unknownFirst outside' => exact absurd inside outside'
    | unknownSecond => rfl
    | compound _ second => exact absurd second.mem_attributes outside
  | compound first second sameKind =>
    cases joins' with
    | unknownFirst outside => exact absurd first.mem_attributes outside
    | unknownSecond _ outside => exact absurd second.mem_attributes outside
    | compound first' second' =>
      obtain rfl := first.unique first'
      obtain rfl := second.unique second'
      rfl

/-- Two clauses never become a query of one. -/
theorem Joins.ne_single (joins : Joins kind key value operator key2 value2 result) (clause : Clause) :
    result ≠ .ok (.single clause) := by
  rintro rfl
  cases joins

theorem Selects.ok {query : Query} (selects : Selects kind key value (.ok query)) :
    key ∈ kind.attributes ∧ query.kind = kind := by
  cases selects with
  | single asks => exact ⟨asks.mem_attributes, asks.kind_eq⟩

theorem Joins.ok {query : Query} (joins : Joins kind key value operator key2 value2 (.ok query)) :
    key ∈ kind.attributes ∧ key2 ∈ kind.attributes ∧ query.kind = kind := by
  cases joins with
  | compound first second => exact ⟨first.mem_attributes, second.mem_attributes, first.kind_eq⟩

theorem Selects.error {error : Error} (selects : Selects kind key value (.error error)) :
    key ∉ kind.attributes ∧ error = .unknownField kind key := by
  cases selects with
  | unknown outside => exact ⟨outside, rfl⟩

theorem Joins.error {error : Error} (joins : Joins kind key value operator key2 value2 (.error error)) :
    (key ∈ kind.attributes → key2 ∉ kind.attributes) ∧
      (error = .unknownField kind key ∨ error = .unknownField kind key2) := by
  cases joins with
  | unknownFirst outside => exact ⟨fun inside => absurd inside outside, .inl rfl⟩
  | unknownSecond inside outside => exact ⟨fun _ => outside, .inr rfl⟩

/-! ## Both front ends keep to the rule -/

/-- Looking one attribute up follows the rule. -/
theorem selects_of_resolve :
    Selects kind key value (do return .single ⟨← Field.resolve kind key, value⟩) := by
  by_cases inside : key ∈ kind.attributes
  · obtain ⟨field, own, named, found⟩ := Field.resolve_of_mem inside
    rw [found]
    exact .single ⟨own, named, rfl⟩
  · rw [Field.resolve_of_notMem inside]
    exact .unknown inside

/-- Looking two attributes up one after the other follows the rule. -/
theorem joins_of_resolve :
    Joins kind key value operator key2 value2 (do
      Query.join ⟨← Field.resolve kind key, value⟩ operator ⟨← Field.resolve kind key2, value2⟩) := by
  by_cases inside : key ∈ kind.attributes
  · obtain ⟨field, own, named, found⟩ := Field.resolve_of_mem inside
    by_cases inside2 : key2 ∈ kind.attributes
    · obtain ⟨field2, own2, named2, found2⟩ := Field.resolve_of_mem inside2
      have first : Clause.AsksFor ⟨field, value⟩ kind key value := ⟨own, named, rfl⟩
      have second : Clause.AsksFor ⟨field2, value2⟩ kind key2 value2 := ⟨own2, named2, rfl⟩
      have sameKind := first.kind_eq.trans second.kind_eq.symm
      have joined : Query.join ⟨field, value⟩ operator ⟨field2, value2⟩ =
          .ok (.compound _ operator _ sameKind) := dif_pos sameKind
      rw [found, found2]
      change Joins kind key value operator key2 value2 (Query.join _ operator _)
      rw [joined]
      exact .compound first second sameKind
    · rw [found, Field.resolve_of_notMem inside2]
      exact .unknownSecond inside inside2
  · rw [Field.resolve_of_notMem inside]
    exact .unknownFirst inside

theorem Command.Search.query_selects (search : Command.Search) (alone : search.operator = none) :
    Selects search.kind search.field search.value search.query := by
  rw [Command.Search.query, alone]
  exact selects_of_resolve

theorem Command.Search.query_joins (search : Command.Search) (joined : search.operator = some operator)
    (second : search.field2 = some key2) (asked : search.value2 = some value2) :
    Joins search.kind search.field search.value operator key2 value2 search.query := by
  rw [Command.Search.query, joined, second, asked]
  exact joins_of_resolve

/-! ## Operators as texts -/

theorem Operator.read_trim :
    Operator.read (Text.trim text) = .ok operator ↔ Operator.read text = .ok operator := by
  simp only [Operator.read, Text.trim_trim]
  split
  · rfl
  · split <;> simp

theorem Operator.error_of_read {error : Error} (unreadable : Operator.read text = .error error) :
    error = .unknownOperator text := by
  unfold Operator.read at unreadable
  dsimp only at unreadable
  split at unreadable
  · cases unreadable
  · split at unreadable <;> cases unreadable
    rfl

/-- A blank text names no operator. -/
theorem Operator.trim_ne_empty (read : Operator.read text = .ok operator) : Text.trim text ≠ "" := by
  intro nothing
  have empty : (Text.trim text).toUpper = "" := by
    rw [nothing]
    exact String.map_eq_empty.mpr rfl
  rw [Operator.read, empty] at read
  cases read

namespace Web.SearchParameters

variable (parameters : Web.SearchParameters)

/-- Without an operator nothing else of a second clause counts. -/
theorem query_selects (blank : Text.isBlankText (parameters.operator.getD "") = true) :
    Selects parameters.kind parameters.field parameters.value parameters.query := by
  have nothing : (Text.trim (parameters.operator.getD "")).isEmpty = true :=
    String.isEmpty_iff.mpr ((Text.trim_eq_empty_iff _).mpr blank)
  simp only [query, nothing, ↓reduceIte]
  exact selects_of_resolve

/-- With an operator a second clause is looked for, and an absent one is a clause without a field. -/
theorem query_joins (joined : parameters.operator = some text) (read : Operator.read text = .ok operator) :
    Joins parameters.kind parameters.field parameters.value operator (parameters.field2.getD "")
      (parameters.value2.getD "") parameters.query := by
  have something : (Text.trim text).isEmpty = false := by
    simpa using Operator.trim_ne_empty read
  simp only [query, joined, Option.getD_some, something, Operator.read_trim.mpr read]
  exact joins_of_resolve

/-- A text that is not blank and names no operator is an error, if the first field is none. -/
theorem query_of_unreadable (joined : parameters.operator = some text)
    (named : Text.isBlankText text = false) (unreadable : ∀ operator, Operator.read text ≠ .ok operator) :
    parameters.query = .error (if parameters.field ∈ parameters.kind.attributes
      then .unknownOperator (Text.trim text) else .unknownField parameters.kind parameters.field) := by
  have something : (Text.trim text).isEmpty = false := by
    rw [← Bool.not_eq_true, String.isEmpty_iff, Text.trim_eq_empty_iff, named]
    exact Bool.false_ne_true
  have refused : Operator.read (Text.trim text) = .error (.unknownOperator (Text.trim text)) := by
    cases word : Operator.read (Text.trim text) with
    | ok operator => exact absurd (Operator.read_trim.mp word) (unreadable operator)
    | error error => rw [Operator.error_of_read word]
  simp only [query, joined, Option.getD_some, something, refused]
  by_cases inside : parameters.field ∈ parameters.kind.attributes
  · obtain ⟨field, -, -, found⟩ := Field.resolve_of_mem inside
    rw [if_pos inside, found]
    rfl
  · rw [if_neg inside, Field.resolve_of_notMem inside]
    rfl

end Web.SearchParameters

/-- **The front ends agree on every search.** Without an operator, whatever else of a second clause is
given, and with any text that names an operator beside a second clause, a request to the web front end and
a command line come to the same query, or to the same error: the first field that is not in the
vocabulary of the kind. -/
theorem front_ends_build_one_query (kind : Kind) (key value : String) :
    (∀ (raw key2 value2 : Option String), Text.isBlankText (raw.getD "") = true →
      Web.SearchParameters.query ⟨kind, key, value, raw, key2, value2⟩ =
          Command.Search.query ⟨kind, key, value, none, key2, value2⟩ ∧
        Selects kind key value (Command.Search.query ⟨kind, key, value, none, key2, value2⟩)) ∧
    ∀ (text : String) (operator : Operator) (key2 value2 : String), Operator.read text = .ok operator →
      Web.SearchParameters.query ⟨kind, key, value, some text, some key2, some value2⟩ =
          Command.Search.query ⟨kind, key, value, some operator, some key2, some value2⟩ ∧
        Joins kind key value operator key2 value2
          (Command.Search.query ⟨kind, key, value, some operator, some key2, some value2⟩) := by
  constructor
  · intro raw key2 value2 blank
    have ruled := Command.Search.query_selects ⟨kind, key, value, none, key2, value2⟩ rfl
    have ruled' := Web.SearchParameters.query_selects ⟨kind, key, value, raw, key2, value2⟩ blank
    exact ⟨ruled'.unique ruled, ruled⟩
  · intro text operator key2 value2 read
    have ruled := Command.Search.query_joins
      ⟨kind, key, value, some operator, some key2, some value2⟩ rfl rfl rfl
    have ruled' := Web.SearchParameters.query_joins
      ⟨kind, key, value, some text, some key2, some value2⟩ rfl read
    exact ⟨ruled'.unique ruled, ruled⟩

/-- Blanks around an operator and the case of its letters make no difference, and neither does a second
clause beside a blank operator. -/
theorem front_ends_build_one_query_padded :
    Text.isBlankText " " = true ∧
      Web.SearchParameters.query ⟨.book, "title", "Dune", some " ", some "name", none⟩ =
        Command.Search.query ⟨.book, "title", "Dune", none, some "name", none⟩ ∧
      Operator.read "\t oR " = .ok .or ∧
      Web.SearchParameters.query ⟨.book, "title", "Dune", some "\t oR ", some "name", some "Herbert"⟩ =
        Command.Search.query ⟨.book, "title", "Dune", some .or, some "name", some "Herbert"⟩ := by
  have blank : Text.isBlankText " " = true := by decide
  have read : Operator.read "\t oR " = .ok .or := by with_unfolding_all rfl
  obtain ⟨single, joined⟩ := front_ends_build_one_query .book "title" "Dune"
  exact ⟨blank, (single (some " ") (some "name") none blank).1, read, (joined _ _ "name" "Herbert" read).1⟩

end BookCatalog
