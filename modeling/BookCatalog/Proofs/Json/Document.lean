import BookCatalog.Proofs.Json.Fields
import BookCatalog.Proofs.Json.Number
import BookCatalog.Proofs.Json.Text

/-!
A document holds a value without loss if the value's numbers are whole and of sixty-four bits, its
objects have their keys in order, and it does not nest deeper than documents may. Written with any
blanks between its parts, such a value is read back as it was. The proof follows the reader: one loop
for the parts of arrays and objects alike, and an induction on the value around it.
-/
namespace BookCatalog.Json

open Read

/-- A value that a document holds without loss, with at most so many brackets nested in each other. -/
inductive Storable : Nat → Json → Prop where
  | null {depth : Nat} : Storable depth .null
  | bool {depth : Nat} (flag : Bool) : Storable depth (.bool flag)
  | whole {depth : Nat} {n : Int} (word : IsWord n) : Storable depth (.number (.whole n))
  | text {depth : Nat} (s : String) : Storable depth (.text s)
  | array {depth : Nat} {items : List Json} (each : ∀ item ∈ items, Storable depth item) :
    Storable (depth + 1) (.array items)
  | object {depth : Nat} {fields : Fields} (ordered : fields.Ordered)
    (each : ∀ field ∈ fields, Storable depth field.2) : Storable (depth + 1) (.object fields)

/-- Spacing that is made of blanks only. -/
structure Spacing.IsBlank (spacing : Spacing) : Prop where
  lineBreak : ∀ depth, ∀ c ∈ (spacing.lineBreak depth).toList, isSpace c = true
  colon : ∃ blanks, spacing.colon.toList = ':' :: blanks ∧ ∀ c ∈ blanks, isSpace c = true

theorem Spacing.indented_isBlank : Spacing.indented.IsBlank where
  lineBreak depth c member := by
    simp only [indented, String.toList_ofList, List.mem_cons, List.mem_replicate] at member
    rcases member with rfl | ⟨-, rfl⟩ <;> rfl
  colon := ⟨[' '], rfl, by simp [isSpace]⟩

/-! ## Blanks -/

theorem skipSpace_append {blanks : List Char} (blank : ∀ c ∈ blanks, isSpace c = true)
    (rest : List Char) : skipSpace (blanks ++ rest) = skipSpace rest := by
  rw [skipSpace, List.dropWhile_append_of_pos blank, skipSpace]

theorem skipSpace_cons {c : Char} (printed : isSpace c = false) (rest : List Char) :
    skipSpace (c :: rest) = c :: rest := by
  simp [skipSpace, printed]

/-- A number ends where blanks or a bracket begin. -/
theorem ends_of_blanks {blanks : List Char} (blank : ∀ c ∈ blanks, isSpace c = true) {rest : List Char}
    (ends : Ends rest) : Ends (blanks ++ rest) := by
  cases blanks with
  | nil => exact ends
  | cons c blanks =>
    intro first same
    obtain rfl : c = first := by simpa using same
    have space := blank c (by simp)
    simp only [isSpace, Bool.or_eq_true, beq_iff_eq] at space
    rcases space with ((rfl | rfl) | rfl) | rfl <;> rfl

/-! ## Parts behind commas -/

section Parts

variable {α : Type} {part : Reader α} {close : Char}

/-- The parts of an array or object up to its closing bracket, with commas in between. -/
def parts (part : Reader α) (close : Char) : Nat → Reader (List α)
  | 0, _ => none
  | bound + 1, chars => do
    let (first, rest) ← part chars
    match skipSpace rest with
    | [] => none
    | c :: rest =>
      if c = ',' then do
        let (more, rest) ← parts part close bound rest
        some (first :: more, rest)
      else if c = close then some ([first], rest) else none

theorem items_eq_parts (value : Reader Json) (bound : Nat) (chars : List Char) :
    items value bound chars = parts (fun chars => value (skipSpace chars)) ']' bound chars := by
  induction bound generalizing chars with
  | zero => rfl
  | succ bound ih =>
    rw [items, parts]
    refine Option.bind_congr fun ⟨first, behind⟩ _ => ?_
    dsimp only
    cases skipSpace behind with
    | nil => rfl
    | cons c rest =>
      by_cases comma : c = ','
      · simp only [comma, ih, ↓reduceIte]
      · by_cases close : c = ']' <;> simp [comma, close]

theorem fields_eq_parts (value : Reader Json) (bound : Nat) (chars : List Char) :
    fields value bound chars = parts (field value) '\x7d' bound chars := by
  induction bound generalizing chars with
  | zero => rfl
  | succ bound ih =>
    rw [fields, parts]
    refine Option.bind_congr fun ⟨first, behind⟩ _ => ?_
    dsimp only
    cases skipSpace behind with
    | nil => rfl
    | cons c rest =>
      by_cases comma : c = ','
      · simp only [comma, ih, ↓reduceIte]
      · by_cases close : c = '\x7d' <;> simp [comma, close]

/-- Parts that are read one by one are read as a list, with blanks in front of the bracket. -/
theorem parts_read (write : α → List Char) (comma : close ≠ ',') (printed : isSpace close = false)
    (ends : continuesNumber close = false) {items : List α}
    (each : ∀ item ∈ items, ∀ rest, Ends rest → part (write item ++ rest) = some (item, rest))
    {first : α} {text : List Char}
    (head : ∀ rest, Ends rest → part (text ++ rest) = some (first, rest))
    {blanks : List Char} (blank : ∀ c ∈ blanks, isSpace c = true) (rest : List Char)
    {bound : Nat} (enough : items.length < bound) :
    parts part close bound
        (text ++ (items.flatMap (fun item => ',' :: write item) ++ (blanks ++ close :: rest))) =
      some (first :: items, rest) := by
  induction items generalizing first text bound with
  | nil =>
    obtain ⟨bound, rfl⟩ : ∃ smaller, bound = smaller + 1 := ⟨bound - 1, by omega⟩
    have closing : Ends (close :: rest) := by
      intro c same
      obtain rfl : close = c := by simpa using same
      exact ends
    rw [List.flatMap_nil, List.nil_append, parts, head _ (ends_of_blanks blank closing)]
    simp only [Option.bind_eq_bind, Option.bind_some, skipSpace_append blank, skipSpace_cons printed,
      comma, ↓reduceIte]
  | cons item items ih =>
    obtain ⟨bound, rfl⟩ : ∃ smaller, bound = smaller + 1 := ⟨bound - 1, by omega⟩
    have fewer : items.length < bound := by simpa using enough
    have more := ih (fun other member => each other (List.mem_cons_of_mem _ member))
      (each item List.mem_cons_self) fewer
    have going : ∀ behind, Ends (',' :: behind) := by simp [Ends, continuesNumber]
    have space : isSpace ',' = false := rfl
    rw [List.flatMap_cons, List.cons_append, List.cons_append, List.append_assoc, parts, head _ (going _)]
    simp only [Option.bind_eq_bind, Option.bind_some, skipSpace_cons space, ↓reduceIte, more]

end Parts

/-! ## Documents as they are written -/

section Written

variable {spacing : Spacing} {depth level : Nat} {json : Json}

/-- A field as it is written. -/
def fieldText (spacing : Spacing) (level : Nat) (field : String × Json) : List Char :=
  (quote field.1).toList ++ spacing.colon.toList ++ (write spacing level field.2).toList

theorem toList_writeItems (items : List Json) :
    (writeItems spacing level items).toList = items.flatMap fun item =>
      ',' :: ((spacing.lineBreak level).toList ++ (write spacing level item).toList) := by
  induction items with
  | nil => simp [writeItems]
  | cons item items ih => simp [writeItems, ih]

theorem toList_writeFields (fields : Fields) :
    (writeFields spacing level fields).toList = fields.flatMap fun field =>
      ',' :: ((spacing.lineBreak level).toList ++ fieldText spacing level field) := by
  induction fields with
  | nil => simp [writeFields]
  | cons field fields ih => simp [writeFields, fieldText, ih]

/-- A value begins neither with a blank nor with a bracket that closes. -/
theorem Storable.write_begins (storable : Storable depth json) (spacing : Spacing) (level : Nat) :
    ∃ first others, (write spacing level json).toList = first :: others ∧ isSpace first = false ∧
      first ≠ ']' := by
  cases storable with
  | null => exact ⟨'n', ['u', 'l', 'l'], by simp [write], rfl, by decide⟩
  | bool flag =>
    cases flag with
    | true => exact ⟨'t', ['r', 'u', 'e'], by simp [write], rfl, by decide⟩
    | false => exact ⟨'f', ['a', 'l', 's', 'e'], by simp [write], rfl, by decide⟩
  | @whole _ n word =>
    obtain ⟨first, others, shape, begins⟩ := wholeText_begins n
    refine ⟨first, others, by simpa [write, numberText] using shape, ?_, ?_⟩
    · cases space : isSpace first with
      | false => rfl
      | true =>
        simp only [isSpace, Bool.or_eq_true, beq_iff_eq] at space
        rcases space with ((rfl | rfl) | rfl) | rfl <;> simp at begins
    · rintro rfl
      simp at begins
  | text s =>
    exact ⟨'"', s.toList.flatMap escapeChar ++ ['"'], by simp [write, toList_quote], rfl, by decide⟩
  | @array _ items each =>
    cases items with
    | nil => exact ⟨'[', [']'], by simp [write], rfl, by decide⟩
    | cons item items => exact ⟨'[', _, by rw [write]; simp; rfl, rfl, by decide⟩
  | @object _ fields ordered each =>
    cases fields with
    | nil => exact ⟨'\x7b', ['\x7d'], by simp [write], rfl, by decide⟩
    | cons field fields => exact ⟨'\x7b', _, by rw [write]; simp; rfl, rfl, by decide⟩

/-- A number is read where one begins. -/
theorem value_wholeText {n : Int} (word : IsWord n) {rest : List Char} (ends : Ends rest) :
    Read.value depth ((wholeText n).toList ++ rest) = some (.number (.whole n), rest) := by
  have read := number_wholeText word ends
  obtain ⟨first, others, shape, begins⟩ := wholeText_begins n
  rw [shape, List.cons_append] at read ⊢
  rw [Read.value.eq_def]
  split <;> rename_i same <;> simp_all

/-- What stands between brackets is read part by part, from the first character that is no blank. -/
theorem value_array {blanks inner : List Char} (blank : ∀ c ∈ blanks, isSpace c = true)
    (begins : ∃ first others, inner = first :: others ∧ isSpace first = false ∧ first ≠ ']') :
    Read.value (depth + 1) ('[' :: (blanks ++ inner)) =
      (items (Read.value depth) inner.length inner).map fun (read, rest) => (.array read, rest) := by
  obtain ⟨first, others, rfl, printed, unclosed⟩ := begins
  rw [Read.value, skipSpace_append blank, skipSpace_cons printed]
  split
  · rename_i same
    exact absurd (List.cons.inj same).1 unclosed
  · rfl

theorem value_object {blanks inner : List Char} (blank : ∀ c ∈ blanks, isSpace c = true)
    (begins : ∃ others, inner = '"' :: others) :
    Read.value (depth + 1) ('\x7b' :: (blanks ++ inner)) =
      (fields (Read.value depth) inner.length inner).map fun (read, rest) =>
        (.object (Fields.ofAssignments read), rest) := by
  obtain ⟨others, rfl⟩ := begins
  have printed : isSpace '"' = false := rfl
  rw [Read.value, skipSpace_append blank, skipSpace_cons printed]
  rfl

/-- A field is read if its value is. -/
theorem field_read {value : Reader Json} {rest : List Char} (key : String) {text : List Char}
    (colon : ∃ blanks, spacing.colon.toList = ':' :: blanks ∧ ∀ c ∈ blanks, isSpace c = true)
    (begins : ∃ first others, text = first :: others ∧ isSpace first = false)
    (read : value (text ++ rest) = some (json, rest)) {front : List Char}
    (blank : ∀ c ∈ front, isSpace c = true) :
    Read.field value (front ++ ((quote key).toList ++ spacing.colon.toList ++ text) ++ rest) =
      some ((key, json), rest) := by
  obtain ⟨blanks, shape, blank'⟩ := colon
  obtain ⟨first, others, rfl, printed⟩ := begins
  have quoted : isSpace '"' = false := rfl
  have divided : isSpace ':' = false := rfl
  simp only [List.cons_append] at read
  simp only [Read.field, shape, toList_quote, List.append_assoc, List.cons_append, List.nil_append,
    skipSpace_append blank, skipSpace_cons quoted, textBody_quote, Option.bind_eq_bind,
    Option.bind_some, skipSpace_cons divided, skipSpace_append blank', skipSpace_cons printed, read]

theorem Storable.skipSpace_write (storable : Storable depth json) (spacing : Spacing) (level : Nat)
    (rest : List Char) : skipSpace ((write spacing level json).toList ++ rest) =
      (write spacing level json).toList ++ rest := by
  obtain ⟨first, others, shape, printed, -⟩ := storable.write_begins spacing level
  rw [shape, List.cons_append, skipSpace_cons printed]

/-- Whether a value is read back at a nesting depth, whatever stands behind it that ends a number. -/
def ReadBack (spacing : Spacing) (depth level : Nat) (json : Json) : Prop :=
  ∀ rest, Ends rest → Read.value depth ((write spacing level json).toList ++ rest) = some (json, rest)

/-- Parts behind commas are no more than the characters that they are written with. -/
theorem length_le_flatMap {α : Type} (write : α → List Char) (items : List α) :
    items.length ≤ (items.flatMap fun item => ',' :: write item).length := by
  induction items with
  | nil => simp
  | cons item items ih =>
    simp only [List.flatMap_cons, List.length_append, List.length_cons]
    omega

theorem array_readBack (blank : spacing.IsBlank) {item : Json} {items : List Json}
    (storable : ∀ other ∈ item :: items, Storable depth other)
    (each : ∀ other ∈ item :: items, ReadBack spacing depth (level + 1) other) :
    ReadBack spacing (depth + 1) level (.array (item :: items)) := by
  intro rest ends
  let written (other : Json) : List Char :=
    (spacing.lineBreak (level + 1)).toList ++ (write spacing (level + 1) other).toList
  have head : ∀ rest, Ends rest → Read.value depth
      (skipSpace ((write spacing (level + 1) item).toList ++ rest)) = some (item, rest) := by
    intro rest ends
    rw [(storable item List.mem_cons_self).skipSpace_write]
    exact each item List.mem_cons_self rest ends
  have others : ∀ other ∈ items, ∀ rest, Ends rest →
      Read.value depth (skipSpace (written other ++ rest)) = some (other, rest) := by
    intro other member rest ends
    have inside := List.mem_cons_of_mem item member
    rw [List.append_assoc, skipSpace_append (blank.lineBreak _), (storable other inside).skipSpace_write]
    exact each other inside rest ends
  have shape : (write spacing level (.array (item :: items))).toList ++ rest =
      '[' :: ((spacing.lineBreak (level + 1)).toList ++ ((write spacing (level + 1) item).toList ++
        (items.flatMap (fun other => ',' :: written other) ++
          ((spacing.lineBreak level).toList ++ ']' :: rest)))) := by
    simp [write, toList_writeItems, written]
  obtain ⟨first, more, begins, printed, unclosed⟩ :=
    (storable item List.mem_cons_self).write_begins spacing (level + 1)
  rw [shape, value_array (blank.lineBreak _) ⟨first, _, by rw [begins]; rfl, printed, unclosed⟩,
    items_eq_parts, parts_read written (by decide) rfl rfl others head (blank.lineBreak _)]
  · rfl
  · have few := length_le_flatMap written items
    simp only [List.length_append, List.length_cons]
    omega

theorem object_readBack (blank : spacing.IsBlank) {field : String × Json} {fields : Fields}
    (ordered : Fields.Ordered (field :: fields))
    (storable : ∀ other ∈ field :: fields, Storable depth other.2)
    (each : ∀ other ∈ field :: fields, ReadBack spacing depth (level + 1) other.2) :
    ReadBack spacing (depth + 1) level (.object (field :: fields)) := by
  intro rest ends
  let written (other : String × Json) : List Char :=
    (spacing.lineBreak (level + 1)).toList ++ fieldText spacing (level + 1) other
  have read : ∀ other ∈ field :: fields, ∀ front, (∀ c ∈ front, isSpace c = true) → ∀ rest, Ends rest →
      Read.field (Read.value depth) (front ++ fieldText spacing (level + 1) other ++ rest) =
        some (other, rest) := by
    intro other member front blank' rest ends
    obtain ⟨first, more, begins, printed, -⟩ :=
      (storable other member).write_begins spacing (level + 1)
    exact field_read other.1 blank.colon ⟨first, more, begins, printed⟩ (each other member rest ends) blank'
  have head : ∀ rest, Ends rest → Read.field (Read.value depth)
      (fieldText spacing (level + 1) field ++ rest) = some (field, rest) := by
    simpa only [List.nil_append] using read field List.mem_cons_self [] (by simp)
  have others : ∀ other ∈ fields, ∀ rest, Ends rest →
      Read.field (Read.value depth) (written other ++ rest) = some (other, rest) := fun other member =>
    read other (List.mem_cons_of_mem field member) _ (blank.lineBreak _)
  have shape : (write spacing level (.object (field :: fields))).toList ++ rest =
      '\x7b' :: ((spacing.lineBreak (level + 1)).toList ++ (fieldText spacing (level + 1) field ++
        (fields.flatMap (fun other => ',' :: written other) ++
          ((spacing.lineBreak level).toList ++ '\x7d' :: rest)))) := by
    simp [write, toList_writeFields, written, fieldText]
  have begins : ∃ others, fieldText spacing (level + 1) field = '"' :: others :=
    ⟨_, by rw [fieldText, toList_quote]; rfl⟩
  obtain ⟨more, begins⟩ := begins
  rw [shape, value_object (blank.lineBreak _) ⟨_, by rw [begins]; rfl⟩, fields_eq_parts,
    parts_read written (by decide) rfl rfl others head (blank.lineBreak _)]
  · simp [Fields.ofAssignments_of_ordered ordered]
  · have few := length_le_flatMap written fields
    simp only [List.length_append, List.length_cons]
    omega

/-- **A stored value is read back,** however it is spaced. -/
theorem Storable.readBack (blank : spacing.IsBlank) (storable : Storable depth json) (level : Nat) :
    ReadBack spacing depth level json := by
  induction storable generalizing level with
  | null => simp [ReadBack, write, Read.value]
  | bool flag => cases flag <;> simp [ReadBack, write, Read.value]
  | whole word =>
    intro rest ends
    simpa [write, numberText] using value_wholeText word ends
  | text s => simp [ReadBack, write, toList_quote, Read.value, textBody_quote]
  | @array depth items each ih =>
    cases items with
    | nil =>
      have printed : isSpace ']' = false := rfl
      simp [ReadBack, write, Read.value, skipSpace_cons printed]
    | cons item items => exact array_readBack blank each fun other member => ih other member _
  | @object depth fields ordered each ih =>
    cases fields with
    | nil =>
      have printed : isSpace '\x7d' = false := rfl
      simp [ReadBack, write, Read.value, skipSpace_cons printed]
    | cons field fields => exact object_readBack blank ordered each fun other member => ih other member _

/-- **A document holds what was stored in it,** with blanks at its end or without. -/
theorem read?_write (blank : spacing.IsBlank) (storable : Storable deepest json) (level : Nat)
    (behind : List Char) (blank' : ∀ c ∈ behind, isSpace c = true) :
    read? (write spacing level json ++ .ofList behind) = some json := by
  have nil : Ends [] := by simp [Ends]
  have ends : Ends behind := by simpa using ends_of_blanks blank' nil
  have read := storable.readBack blank level behind ends
  have nothing : skipSpace behind = [] := by
    rw [← List.append_nil behind, skipSpace_append blank']
    rfl
  rw [read?, String.toList_append, String.toList_ofList, storable.skipSpace_write, read]
  simp [nothing]

end Written

end BookCatalog.Json
