import BookCatalog.Query.Compile

/-!
Kinds and fields by their names. A kind is told by its name, and a field by its kind and its attribute.
The attributes of a kind and the names of its fields are the same list, so looking a field up finds every
attribute of the kind and nothing else. No name of a kind has a point and no attribute a colon.
-/
namespace BookCatalog

variable {kind : Kind} {key : String}

theorem Kind.ofName?_name (kind : Kind) : Kind.ofName? kind.name = some kind := by
  cases kind <;> decide

theorem Kind.name_injective {kind other : Kind} (same : kind.name = other.name) : kind = other := by
  have found := ofName?_name kind
  rw [same, ofName?_name] at found
  exact (Option.some.inj found).symm

theorem Kind.point_notMem_name (kind : Kind) : '.' ∉ kind.name.toList := by
  cases kind <;> decide

/-- A kind has each of its attributes once. -/
theorem Kind.nodup_attributes (kind : Kind) : kind.attributes.Nodup := by
  cases kind <;> decide

theorem Kind.hasAttribute_iff : kind.hasAttribute key = true ↔ key ∈ kind.attributes :=
  List.contains_iff_mem

theorem Field.resolve_key (field : Field) : Field.resolve field.kind field.key = .ok field := by
  rcases field with field | field <;> cases field <;> rfl

theorem Field.key_injective {field other : Field} (kinds : field.kind = other.kind)
    (keys : field.key = other.key) : field = other := by
  have found := resolve_key field
  rw [kinds, keys, resolve_key] at found
  exact (Except.ok.inj found).symm

theorem Field.colon_notMem_key (field : Field) : ':' ∉ field.key.toList := by
  rcases field with field | field <;> cases field <;> decide

/-- The table of attributes and the fields of a kind agree, also in their order. -/
theorem Kind.attributes_eq (kind : Kind) : kind.attributes = (Field.ofKind kind).map Field.key := by
  cases kind <;> rfl

theorem Field.mem_ofKind_iff {field : Field} : field ∈ ofKind kind ↔ field.kind = kind := by
  constructor
  · have own : ∀ field ∈ ofKind kind, field.kind = kind := by cases kind <;> decide
    exact own field
  · rintro rfl
    rcases field with field | field <;> cases field <;> decide

theorem Kind.mem_attributes_iff : key ∈ kind.attributes ↔ ∃ field : Field, field.kind = kind ∧ field.key = key := by
  rw [attributes_eq, List.mem_map]
  simp only [Field.mem_ofKind_iff]

theorem Field.resolve_of_mem (inside : key ∈ kind.attributes) :
    ∃ field : Field, field.kind = kind ∧ field.key = key ∧ Field.resolve kind key = .ok field := by
  obtain ⟨field, rfl, rfl⟩ := Kind.mem_attributes_iff.mp inside
  exact ⟨field, rfl, rfl, field.resolve_key⟩

theorem Field.resolve_of_notMem (outside : key ∉ kind.attributes) :
    Field.resolve kind key = .error (.unknownField kind key) := by
  have unnamed : (ofKind kind).find? (·.key == key) = none := by
    apply List.find?_eq_none.mpr
    intro field listed named
    rw [Kind.attributes_eq] at outside
    exact outside (List.mem_map.mpr ⟨field, listed, beq_iff_eq.mp named⟩)
  rw [resolve, unnamed]

end BookCatalog
