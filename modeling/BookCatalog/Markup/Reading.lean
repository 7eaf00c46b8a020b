import BookCatalog.Markup.Token
import BookCatalog.Text.Basic

/-!
Markup as it is read. A tag is what stands between `<` and `>`, the value of an attribute is what
stands between two double quotes, and entities are decoded in values and texts. Reading knows
nothing of what was meant, so a text that broke out of its place would be read as something else.
-/
namespace BookCatalog.Markup

/-- Takes what stands between two quotes off the front. -/
def takeQuoted? : List Char → Option (List Char × List Char)
  | '"' :: chars => Text.splitChars '"' chars
  | _ => none

/-- What stands behind a quoted value is shorter than the whole. -/
theorem length_of_takeQuoted? {chars value rest : List Char}
    (taken : takeQuoted? chars = some (value, rest)) : rest.length < chars.length := by
  unfold takeQuoted? at taken
  split at taken
  · exact Nat.lt_succ_of_lt (Text.length_of_splitChars taken)
  · simp at taken

/-- Takes an attribute off the front: a blank, a name, an equals sign and a quoted value. -/
def takeAttribute? : List Char → Option (Attribute × List Char)
  | ' ' :: chars => do
    let (name, chars) ← Text.splitChars '=' chars
    let (value, rest) ← takeQuoted? chars
    some (⟨.ofList name, .ofList (unescapeChars value)⟩, rest)
  | _ => none

/-- What stands behind an attribute is shorter than the whole. -/
theorem length_of_takeAttribute? {chars rest : List Char} {item : Attribute}
    (taken : takeAttribute? chars = some (item, rest)) : rest.length < chars.length := by
  unfold takeAttribute? at taken
  split at taken
  · obtain ⟨⟨name, behind⟩, named, taken⟩ := Option.bind_eq_some_iff.mp taken
    obtain ⟨⟨value, after⟩, quoted, same⟩ := Option.bind_eq_some_iff.mp taken
    have shorter := Text.length_of_splitChars named
    have shortest := length_of_takeQuoted? quoted
    simp_all only [Option.some.injEq, Prod.mk.injEq, List.length_cons]
    omega
  · simp at taken

/-- The attributes of a tag. -/
def readAttributes? (chars : List Char) : Option (List Attribute) :=
  if chars.isEmpty then some []
  else match taken : takeAttribute? chars with
    | none => none
    | some (item, rest) =>
      have := length_of_takeAttribute? taken
      (readAttributes? rest).map (item :: ·)
termination_by chars.length

/-- The tag whose characters are given, without its brackets. -/
def readTag? : List Char → Option Token
  | '/' :: name => some (.closing (.ofList name))
  | inside =>
    let isLone := inside.getLast? == some '/'
    let inside := if isLone then inside.dropLast else inside
    let name : String := .ofList (inside.takeWhile (· != ' '))
    (readAttributes? (inside.dropWhile (· != ' '))).map fun attributes =>
      if isLone then .lone name attributes else .opening name attributes

/-- The tags and texts that characters make up. -/
def readChars? : List Char → Option (List Token)
  | [] => some []
  | '<' :: chars =>
    match split : Text.splitChars '>' chars with
    | none => none
    | some (inside, rest) => do
      have := Text.length_of_splitChars split
      let token ← readTag? inside
      let tokens ← readChars? rest
      some (token :: tokens)
  | c :: chars =>
    let content := c :: chars.takeWhile (· != '<')
    (readChars? (chars.dropWhile (· != '<'))).map
      (.text (.ofList (unescapeChars content)) :: ·)
termination_by chars => chars.length
decreasing_by
  all_goals simp only [List.length_cons]
  · omega
  · exact Nat.lt_succ_of_le (List.dropWhile_suffix _).length_le

/-- The tags and texts of a document; `none` when a tag is not closed or cannot be read. -/
def read? (document : String) : Option (List Token) := readChars? document.toList

end BookCatalog.Markup
