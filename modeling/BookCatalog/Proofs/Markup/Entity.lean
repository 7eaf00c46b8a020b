import BookCatalog.Markup.Token

/-!
Escaped text is neutral and loses nothing. None of the characters that open a tag, close one or end a
value is left in it, its ampersands all begin entities, and decoding the entities gives the text back,
also where the text already holds something that looks like an entity: its ampersand was escaped too.
Every neutral text is escaped text, so escaping and decoding lead from all texts to the neutral ones and
back.
-/
namespace BookCatalog.Markup

/-- The characters that end a tag or a value, or begin one. -/
def isDelimiter (c : Char) : Bool := c == '<' || c == '>' || c == '"' || c == '\''

/-- The entities with the characters that they stand for. -/
def entities : List (String × Char) :=
  [("&amp;", '&'), ("&lt;", '<'), ("&gt;", '>'), ("&quot;", '"'), ("&#39;", '\'')]

theorem escapeChar_of_plain {c : Char} (plain : c ≠ '&') (undelimited : isDelimiter c = false) :
    escapeChar c = [c] := by
  unfold escapeChar
  split <;> simp_all [isDelimiter]

/-- A character is written as it stands, or it is one of five and written as its entity. -/
theorem escapeChar_cases (c : Char) :
    escapeChar c = [c] ∧ c ≠ '&' ∧ isDelimiter c = false ∨
      ∃ entity ∈ entities, escapeChar c = entity.1.toList ∧ c = entity.2 := by
  by_cases special : c = '&' ∨ isDelimiter c = true
  · right
    simp only [isDelimiter, Bool.or_eq_true, beq_iff_eq] at special
    rcases special with rfl | ((rfl | rfl) | rfl) | rfl <;> decide
  · left
    rw [not_or, Bool.not_eq_true] at special
    exact ⟨escapeChar_of_plain special.1 special.2, special⟩

theorem escapeChar_entity : ∀ entity ∈ entities, escapeChar entity.2 = entity.1.toList := by
  simp [entities, escapeChar]

/-- An entity has its only ampersand in front. -/
theorem entities_begin : ∀ entity ∈ entities, ∃ others, entity.1.toList = '&' :: others ∧ '&' ∉ others := by
  simp [entities]

theorem entities_neutral : ∀ entity ∈ entities, ∀ d ∈ entity.1.toList, isDelimiter d = false := by
  have neutral : (entities.all fun entity => !entity.1.toList.any isDelimiter) = true := by decide
  simpa using neutral

theorem escapeChar_neutral {c d : Char} (member : d ∈ escapeChar c) : isDelimiter d = false := by
  rcases escapeChar_cases c with ⟨same, -, neutral⟩ | ⟨entity, listed, same, -⟩
  · rw [same, List.mem_singleton] at member
    rwa [member]
  · rw [same] at member
    exact entities_neutral entity listed d member

theorem escape_neutral {text : List Char} {d : Char} (member : d ∈ text.flatMap escapeChar) :
    isDelimiter d = false := by
  obtain ⟨c, -, member⟩ := List.mem_flatMap.mp member
  exact escapeChar_neutral member

/-- A delimiter is not in an escaped text. -/
theorem notMem_escape {d : Char} (delimiter : isDelimiter d = true) (text : List Char) :
    d ∉ text.flatMap escapeChar := by
  intro member
  rw [escape_neutral member] at delimiter
  contradiction

theorem unescapeChars_cons {c : Char} (plain : c ≠ '&') (rest : List Char) :
    unescapeChars (c :: rest) = c :: unescapeChars rest := by
  rw [unescapeChars.eq_def]
  split <;> simp_all

theorem unescapeChars_entity (rest : List Char) : ∀ entity ∈ entities,
    unescapeChars (entity.1.toList ++ rest) = entity.2 :: unescapeChars rest := by
  simp [entities, unescapeChars]

/-- Decoding reads one escaped character as that character and goes on behind it. -/
theorem unescapeChars_escapeChar (c : Char) (rest : List Char) :
    unescapeChars (escapeChar c ++ rest) = c :: unescapeChars rest := by
  rcases escapeChar_cases c with ⟨same, plain, -⟩ | ⟨entity, listed, same, rfl⟩
  · rw [same]
    exact unescapeChars_cons plain rest
  · rw [same]
    exact unescapeChars_entity rest entity listed

theorem unescapeChars_escape (text : List Char) : unescapeChars (text.flatMap escapeChar) = text := by
  induction text with
  | nil => simp [unescapeChars]
  | cons c text ih => rw [List.flatMap_cons, unescapeChars_escapeChar, ih]

@[simp] theorem toList_escape (text : String) : (escape text).toList = text.toList.flatMap escapeChar := by
  simp [escape]

theorem escape_eq_nil_iff {text : List Char} : text.flatMap escapeChar = [] ↔ text = [] := by
  constructor
  · intro empty
    rw [← unescapeChars_escape text, empty, unescapeChars]
  · rintro rfl
    rfl

theorem unescape_escape (text : String) : unescape (escape text) = text := by
  rw [unescape, toList_escape, unescapeChars_escape, String.ofList_toList]

theorem escape_append (text other : String) : escape (text ++ other) = escape text ++ escape other := by
  apply String.toList_inj.mp
  simp only [String.toList_append, toList_escape, List.flatMap_append]

/-! ## Neutral text -/

/-- Characters that markup takes for text and for nothing else: none of them is a delimiter, and every
ampersand begins an entity. -/
structure IsNeutral (chars : List Char) : Prop where
  undelimited : ∀ c ∈ chars, isDelimiter c = false
  begun : ∀ behind, '&' :: behind <:+ chars → ∃ entity ∈ entities, entity.1.toList <+: '&' :: behind

namespace IsNeutral

variable {front rest chars : List Char}

theorem append (neutral : IsNeutral front) (neutral' : IsNeutral rest) : IsNeutral (front ++ rest) where
  undelimited c member := by
    rcases List.mem_append.mp member with before | behind
    · exact neutral.undelimited c before
    · exact neutral'.undelimited c behind
  begun behind suffix := by
    obtain ⟨before, same⟩ := suffix
    rcases List.append_eq_append_iff.mp same with ⟨inside, rfl, left⟩ | ⟨between, -, rfl⟩
    · cases inside with
      | nil => exact neutral'.begun behind ⟨[], left⟩
      | cons first inside =>
        -- The ampersand is in front, and so is the whole of its entity.
        obtain ⟨rfl, rfl⟩ := List.cons.inj left
        obtain ⟨entity, listed, begins⟩ := neutral.begun inside ⟨before, rfl⟩
        exact ⟨entity, listed, begins.trans (List.prefix_append ..)⟩
    · exact neutral'.begun behind ⟨between, rfl⟩

theorem of_append (neutral : IsNeutral (front ++ rest)) : IsNeutral rest where
  undelimited c member := neutral.undelimited c (List.mem_append_right front member)
  begun behind suffix := neutral.begun behind (suffix.trans (List.suffix_append ..))

theorem of_escapeChar (c : Char) : IsNeutral (escapeChar c) where
  undelimited _ := escapeChar_neutral
  begun behind suffix := by
    rcases escapeChar_cases c with ⟨same, plain, -⟩ | ⟨entity, listed, same, -⟩
    · rw [same] at suffix
      exact absurd (List.mem_singleton.mp (suffix.mem List.mem_cons_self)).symm plain
    · obtain ⟨others, shape, without⟩ := entities_begin entity listed
      rw [same, shape] at suffix
      rcases List.suffix_cons_iff.mp suffix with whole | later
      · rw [whole, ← shape]
        exact ⟨entity, listed, List.prefix_refl _⟩
      · exact absurd (later.mem List.mem_cons_self) without

theorem of_escape (text : List Char) : IsNeutral (text.flatMap escapeChar) := by
  induction text with
  | nil => exact ⟨by simp, by simp⟩
  | cons c text ih => exact (of_escapeChar c).append ih

/-- Neutral characters are the escaped form of a text. What they begin with is a plain character or an entity,
and what stands behind it is neutral as well. -/
theorem exists_escape (neutral : IsNeutral chars) : ∃ text : List Char, chars = text.flatMap escapeChar := by
  induction size : chars.length using Nat.strongRecOn generalizing chars with
  | ind size ih =>
    subst size
    cases chars with
    | nil => exact ⟨[], rfl⟩
    | cons c rest =>
      by_cases ampersand : c = '&'
      · subst ampersand
        obtain ⟨entity, listed, behind, same⟩ := neutral.begun rest (List.suffix_refl _)
        obtain ⟨others, shape, -⟩ := entities_begin entity listed
        rw [← same] at neutral ih ⊢
        have shorter : behind.length < (entity.1.toList ++ behind).length := by
          rw [List.length_append, shape, List.length_cons]
          omega
        obtain ⟨text, rfl⟩ := ih _ shorter neutral.of_append rfl
        exact ⟨entity.2 :: text, by rw [List.flatMap_cons, escapeChar_entity entity listed]⟩
      · have undelimited := neutral.undelimited c List.mem_cons_self
        have neutral' : IsNeutral ([c] ++ rest) := neutral
        obtain ⟨text, rfl⟩ := ih _ (Nat.lt_succ_self _) neutral'.of_append rfl
        exact ⟨c :: text, by rw [List.flatMap_cons, escapeChar_of_plain ampersand undelimited]; rfl⟩

end IsNeutral

/-- Neutral texts are those that escaping gives back when they are decoded. -/
theorem isNeutral_iff (text : String) : IsNeutral text.toList ↔ escape (unescape text) = text := by
  constructor
  · intro neutral
    obtain ⟨chars, same⟩ := neutral.exists_escape
    apply String.toList_inj.mp
    rw [toList_escape, unescape, String.toList_ofList, same, unescapeChars_escape]
  · intro same
    rw [← same, toList_escape]
    exact .of_escape _

/-- **Escaping makes texts neutral and loses nothing.** An escaped text has no delimiter, each of its ampersands
begins one of the five entities, and decoding these once gives the text back, whatever it looked like. The
neutral texts are just the escaped ones. Escaping goes piece by piece, and different texts stay different. -/
theorem escaping_is_neutral_and_lossless :
    (∀ text, IsNeutral (escape text).toList ∧ unescape (escape text) = text) ∧
      (∀ text, IsNeutral text.toList ↔ escape (unescape text) = text) ∧
      (∀ text other, escape (text ++ other) = escape text ++ escape other) ∧
      Function.Injective escape := by
  refine ⟨fun text => ⟨?_, unescape_escape text⟩, isNeutral_iff, escape_append, ?_⟩
  · rw [toList_escape]
    exact .of_escape _
  · exact Function.LeftInverse.injective unescape_escape

-- What looks escaped already is escaped once more, and decoded once.
example : escape "&lt;" = "&amp;lt;" ∧ unescape "&amp;lt;" = "&lt;" := by cbv

end BookCatalog.Markup
