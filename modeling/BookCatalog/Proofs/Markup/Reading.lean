import Mathlib.Data.List.Chain
import BookCatalog.Markup.Reading
import BookCatalog.Proofs.Markup.Entity
import BookCatalog.Proofs.Text.Split

/-!
Reading markup undoes writing it. Names are the only part of a tag that is written as it is, so they
must not hold a character that means something in a tag; everything else is escaped and cannot leave
its place. Texts are told from each other by the tags between them, and an empty text leaves no trace,
so what is read is what was written except for the empty texts.
-/
namespace BookCatalog.Markup

/-! ## What can be read back -/

/-- Whether a character means something in a tag. -/
def isReserved (c : Char) : Bool := [' ', '=', '/', '<', '>', '"'].contains c

/-- Whether a text can name a tag or an attribute. -/
def isName (name : String) : Bool := !name.toList.isEmpty && !name.toList.any isReserved

namespace Token

/-- Whether the names in a token are names. -/
def isNamed : Token → Bool
  | .opening name attributes | .lone name attributes =>
    isName name && attributes.all fun item => isName item.name
  | .closing name => isName name
  | .text _ => true

/-- Whether a token is a text. -/
def isText : Token → Bool
  | .text _ => true
  | _ => false

/-- Whether a token leaves a trace in the document. -/
def isVisible : Token → Bool
  | .text content => content != ""
  | _ => true

end Token

/-- A document that can be read back: it begins with a tag, and so does what follows a text. -/
structure Legible (tokens : List Token) : Prop where
  named : tokens.all Token.isNamed = true
  apart : tokens.IsChain fun token next => token.isText = true → next.isText = false
  begins : ∀ token ∈ tokens.head?, token.isText = false

theorem Legible.nil : Legible [] := ⟨rfl, .nil, by simp⟩

theorem Legible.append {tokens more : List Token} (first : Legible tokens) (second : Legible more) :
    Legible (tokens ++ more) where
  named := by rw [List.all_append, first.named, second.named, Bool.and_true]
  apart := List.isChain_append.mpr
    ⟨first.apart, second.apart, fun _ _ next member _ => second.begins next member⟩
  begins token member := by
    cases tokens with
    | nil => exact second.begins token member
    | cons head tail => exact first.begins token member

/-! ## Names -/

variable {name : String}

theorem exists_cons_of_isName (named : isName name = true) :
    ∃ first others, name.toList = first :: others := by
  cases chars : name.toList with
  | nil => simp [isName, chars] at named
  | cons first others => exact ⟨first, others, rfl⟩

/-- A reserved character is not in a name. -/
theorem notMem_of_isName {c : Char} (named : isName name = true) (reserved : isReserved c = true) :
    c ∉ name.toList := by
  intro member
  have holds : name.toList.any isReserved = true := List.any_eq_true.mpr ⟨c, member, reserved⟩
  simp [isName, holds] at named

/-! ## Attributes -/

variable {item : Attribute} {attributes : List Attribute}

theorem Attribute.toList_write (item : Attribute) :
    item.write.toList = ' ' :: (item.name.toList ++ '=' :: '"' ::
      (item.value.toList.flatMap escapeChar ++ ['"'])) := by
  simp [Attribute.write]

theorem toList_writeAttributes (attributes : List Attribute) :
    (writeAttributes attributes).toList = attributes.flatMap (·.write.toList) := by
  simp [writeAttributes, List.flatMap_map]

theorem takeAttribute?_write (named : isName item.name = true) (rest : List Char) :
    takeAttribute? (item.write.toList ++ rest) = some (item, rest) := by
  have unequal : '=' ∉ item.name.toList := notMem_of_isName named rfl
  have unquoted : '"' ∉ item.value.toList.flatMap escapeChar := notMem_escape rfl _
  have name := Text.splitChars_append unequal
    ('"' :: (item.value.toList.flatMap escapeChar ++ '"' :: rest))
  have value := Text.splitChars_append unquoted rest
  simp [Attribute.toList_write, takeAttribute?, takeQuoted?, name, value, unescapeChars_escape]

theorem readAttributes?_write (named : attributes.all (fun item => isName item.name) = true) :
    readAttributes? (writeAttributes attributes).toList = some attributes := by
  rw [toList_writeAttributes]
  induction attributes with
  | nil => rw [readAttributes?]; rfl
  | cons item attributes ih =>
    rw [List.all_cons, Bool.and_eq_true] at named
    have taken := takeAttribute?_write named.1 (attributes.flatMap (·.write.toList))
    have more : (item.write.toList ++ attributes.flatMap (·.write.toList)).isEmpty = false := by
      simp [Attribute.toList_write]
    rw [List.flatMap_cons, readAttributes?, if_neg (by simp [more])]
    split
    · rename_i none
      rw [taken] at none
      contradiction
    · rename_i found
      rw [taken] at found
      cases found
      rw [ih named.2]
      rfl

/-! ## Tags -/

/-- What is written between the brackets of a tag with attributes. -/
def insideTag (name : String) (attributes : List Attribute) : List Char :=
  name.toList ++ (writeAttributes attributes).toList

theorem head?_writeAttributes : ∀ c ∈ (writeAttributes attributes).toList.head?, c = ' ' := by
  rw [toList_writeAttributes]
  cases attributes <;> simp [Attribute.toList_write]

theorem getLast?_writeAttributes : ∀ c ∈ (writeAttributes attributes).toList.getLast?, c = '"' := by
  rw [toList_writeAttributes]
  rcases List.eq_nil_or_concat attributes with rfl | ⟨front, last, rfl⟩
  · simp
  · have ends : last.write.toList.getLast? = some '"' := by
      simp [Attribute.toList_write, List.getLast?_cons]
    simp [List.getLast?_append, ends]

/-- A tag with attributes does not look like one that closes itself. -/
theorem getLast?_insideTag (named : isName name = true) (attributes : List Attribute) :
    (insideTag name attributes).getLast? ≠ some '/' := by
  intro last
  rw [insideTag, List.getLast?_append] at last
  cases ends : (writeAttributes attributes).toList.getLast? with
  | none =>
    have unslashed : '/' ∉ name.toList := notMem_of_isName named rfl
    rw [ends, Option.none_or] at last
    exact unslashed (List.mem_of_getLast? last)
  | some c =>
    rw [ends, getLast?_writeAttributes c ends] at last
    simp at last

theorem name_of_insideTag (named : isName name = true) (attributes : List Attribute) :
    (insideTag name attributes).takeWhile (· != ' ') = name.toList ∧
      (insideTag name attributes).dropWhile (· != ' ') = (writeAttributes attributes).toList := by
  have unspaced : ∀ c ∈ name.toList, (c != ' ') = true := by
    intro c member
    have absent : ' ' ∉ name.toList := notMem_of_isName named rfl
    simpa using ne_of_mem_of_not_mem member absent
  have spaced : ∀ c ∈ (writeAttributes attributes).toList.head?, c = ' ' := head?_writeAttributes
  rw [insideTag, List.takeWhile_append_of_pos unspaced, List.dropWhile_append_of_pos unspaced]
  cases chars : (writeAttributes attributes).toList with
  | nil => simp
  | cons c chars =>
    rw [chars] at spaced
    obtain rfl : c = ' ' := spaced c rfl
    simp

/-- A tag that does not begin with a slash is read by its name and its attributes. -/
theorem readTag?_of_head? {inside : List Char} (unslashed : inside.head? ≠ some '/') :
    readTag? inside =
      let isLone := inside.getLast? == some '/'
      let inside := if isLone then inside.dropLast else inside
      let name : String := .ofList (inside.takeWhile (· != ' '))
      (readAttributes? (inside.dropWhile (· != ' '))).map fun attributes =>
        if isLone then .lone name attributes else .opening name attributes := by
  unfold readTag?
  split
  · simp at unslashed
  · rfl

/-- A tag is read as it was written. -/
theorem readTag?_insideTag (named : isName name = true)
    (items : attributes.all (fun item => isName item.name) = true) :
    readTag? (insideTag name attributes) = some (.opening name attributes) ∧
      readTag? (insideTag name attributes ++ ['/']) = some (.lone name attributes) := by
  have written := readAttributes?_write items
  have last := getLast?_insideTag named attributes
  obtain ⟨front, behind⟩ := name_of_insideTag named attributes
  obtain ⟨first, others, chars⟩ := exists_cons_of_isName named
  have absent : '/' ∉ name.toList := notMem_of_isName named rfl
  have unslashed : ∀ more, (insideTag name attributes ++ more).head? ≠ some '/' := by
    intro more
    rw [chars] at absent
    simpa [insideTag, chars, eq_comm] using (List.ne_and_not_mem_of_not_mem_cons absent).1
  constructor
  · rw [readTag?_of_head? (by simpa using unslashed [])]
    simp [last, front, behind, written]
  · rw [readTag?_of_head? (unslashed _)]
    simp [front, behind, written]

/-- The bracket that closes a tag is not in it. -/
theorem notMem_insideTag (named : isName name = true)
    (items : attributes.all (fun item => isName item.name) = true) :
    '>' ∉ insideTag name attributes := by
  have own : '>' ∉ name.toList := notMem_of_isName named rfl
  simp only [insideTag, toList_writeAttributes, List.mem_append, List.mem_flatMap, not_or, not_exists,
    not_and]
  refine ⟨own, fun item member inside => ?_⟩
  have absent : '>' ∉ item.name.toList := notMem_of_isName (List.all_eq_true.mp items item member) rfl
  have neutral : '>' ∉ item.value.toList.flatMap escapeChar := notMem_escape rfl _
  simp only [Attribute.toList_write, List.mem_cons, List.mem_append, List.not_mem_nil, or_false] at inside
  rcases inside with wrong | inside | wrong | wrong | inside | wrong
  · exact absurd wrong (by decide)
  · exact absent inside
  · exact absurd wrong (by decide)
  · exact absurd wrong (by decide)
  · exact neutral inside
  · exact absurd wrong (by decide)

/-! ## Documents -/

/-- A tag in front of a document is read on its own. -/
theorem readChars?_tag {inside : List Char} (closed : '>' ∉ inside) (rest : List Char) :
    readChars? ('<' :: (inside ++ '>' :: rest)) =
      (readTag? inside).bind fun token => (readChars? rest).map (token :: ·) := by
  have found := Text.splitChars_append closed rest
  rw [readChars?]
  split
  · rename_i unread
    rw [found] at unread
    contradiction
  · rename_i read
    rw [found] at read
    cases read
    cases readTag? inside <;> cases readChars? rest <;> rfl

/-- A text in front of a document is read up to the next tag. -/
theorem readChars?_text {content rest : List Char} (nonempty : content ≠ []) (untagged : '<' ∉ content)
    (tagged : ∀ c ∈ rest.head?, c = '<') :
    readChars? (content ++ rest) =
      (readChars? rest).map (.text (.ofList (unescapeChars content)) :: ·) := by
  obtain ⟨first, content, rfl⟩ := List.exists_cons_of_ne_nil nonempty
  obtain ⟨plain, untagged⟩ := List.ne_and_not_mem_of_not_mem_cons untagged
  have inside : ∀ c ∈ content, (c != '<') = true := by
    intro c member
    simpa using ne_of_mem_of_not_mem member untagged
  have behind : rest.takeWhile (· != '<') = [] ∧ rest.dropWhile (· != '<') = rest := by
    cases rest with
    | nil => simp
    | cons c rest =>
      obtain rfl : c = '<' := tagged c rfl
      simp
  rw [List.cons_append, readChars?]
  · rw [List.takeWhile_append_of_pos inside, List.dropWhile_append_of_pos inside, behind.1, behind.2,
      List.append_nil]
  · exact plain.symm

theorem Token.write_begins {token : Token} (tag : token.isText = false) :
    ∃ rest, token.write.toList = '<' :: rest := by
  cases token with
  | text content => simp [isText] at tag
  | opening name attributes => exact ⟨_, by simp [Token.write]; rfl⟩
  | closing name => exact ⟨_, by simp [Token.write]; rfl⟩
  | lone name attributes => exact ⟨_, by simp [Token.write]; rfl⟩

theorem readChars?_write_tag {token : Token} (tag : token.isText = false)
    (named : token.isNamed = true) (rest : List Char) :
    readChars? (token.write.toList ++ rest) = (readChars? rest).map (token :: ·) := by
  cases token with
  | text content => simp [Token.isText] at tag
  | opening name attributes =>
    rw [Token.isNamed, Bool.and_eq_true] at named
    obtain ⟨named, items⟩ := named
    have shape : (Token.opening name attributes).write.toList ++ rest =
        '<' :: (insideTag name attributes ++ '>' :: rest) := by
      simp [Token.write, insideTag]
    rw [shape, readChars?_tag (notMem_insideTag named items), (readTag?_insideTag named items).1]
    rfl
  | lone name attributes =>
    rw [Token.isNamed, Bool.and_eq_true] at named
    obtain ⟨named, items⟩ := named
    have shape : (Token.lone name attributes).write.toList ++ rest =
        '<' :: ((insideTag name attributes ++ ['/']) ++ '>' :: rest) := by
      simp [Token.write, insideTag]
    have closed : '>' ∉ insideTag name attributes ++ ['/'] := by
      simp [notMem_insideTag named items]
    rw [shape, readChars?_tag closed, (readTag?_insideTag named items).2]
    rfl
  | closing name =>
    have shape : (Token.closing name).write.toList ++ rest =
        '<' :: ('/' :: name.toList ++ '>' :: rest) := by
      simp [Token.write]
    have closed : '>' ∉ '/' :: name.toList := by
      have own : '>' ∉ name.toList := notMem_of_isName named rfl
      simp [own]
    rw [shape, readChars?_tag closed]
    simp [readTag?]

theorem readChars?_write_text {content : String} (nonempty : content ≠ "") {rest : List Char}
    (tagged : ∀ c ∈ rest.head?, c = '<') :
    readChars? ((Token.text content).write.toList ++ rest) =
      (readChars? rest).map (.text content :: ·) := by
  have visible : content.toList.flatMap escapeChar ≠ [] := by
    rw [ne_eq, escape_eq_nil_iff]
    simpa using nonempty
  have untagged : '<' ∉ content.toList.flatMap escapeChar := notMem_escape rfl _
  rw [Token.write, toList_escape, readChars?_text visible untagged tagged, unescapeChars_escape]
  simp

/-- The characters of a document. -/
theorem toList_write (tokens : List Token) : (write tokens).toList = tokens.flatMap (·.write.toList) := by
  simp [write, List.flatMap_map]

theorem head?_write {tokens : List Token} (begins : ∀ token ∈ tokens.head?, token.isText = false) :
    ∀ c ∈ (tokens.flatMap (·.write.toList)).head?, c = '<' := by
  cases tokens with
  | nil => simp
  | cons token tokens =>
    obtain ⟨rest, chars⟩ := token.write_begins (begins token rfl)
    simp [chars, eq_comm]

theorem readChars?_write {tokens : List Token} (named : tokens.all Token.isNamed = true)
    (apart : tokens.IsChain fun token next => token.isText = true → next.isText = false) :
    readChars? (tokens.flatMap (·.write.toList)) = some (tokens.filter Token.isVisible) := by
  induction tokens with
  | nil => simp [readChars?]
  | cons token tokens ih =>
    rw [List.all_cons, Bool.and_eq_true] at named
    have rest := ih named.2 apart.tail
    rw [List.flatMap_cons]
    cases kind : token.isText with
    | false =>
      have visible : token.isVisible = true := by
        cases token <;> simp_all [Token.isText, Token.isVisible]
      rw [readChars?_write_tag kind named.1, rest, List.filter_cons_of_pos visible]
      rfl
    | true =>
      cases token with
      | text content =>
        have tagged := head?_write fun next member => (List.isChain_cons.mp apart).1 next member rfl
        by_cases empty : content = ""
        · subst empty
          have silent : (Token.text "").write.toList = [] := by simp [Token.write]
          rw [silent, List.nil_append, rest]
          simp [Token.isVisible]
        · have visible : (Token.text content).isVisible = true := by simp [Token.isVisible, empty]
          rw [readChars?_write_text empty tagged, rest, List.filter_cons_of_pos visible]
          rfl
      | opening name attributes => simp [Token.isText] at kind
      | closing name => simp [Token.isText] at kind
      | lone name attributes => simp [Token.isText] at kind

/-- **Reading undoes writing.** What is read from a document is what was written, but for the empty
texts. -/
theorem read?_write {tokens : List Token} (legible : Legible tokens) :
    read? (write tokens) = some (tokens.filter Token.isVisible) := by
  rw [read?, toList_write, readChars?_write legible.named legible.apart]

end BookCatalog.Markup
