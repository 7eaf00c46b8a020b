/-!
Markup as a sequence of tags and texts. Only names are written as they are; attribute values and
texts are escaped, whatever they hold. The five characters that mean something in markup are written
as entities, so no text can open a tag, end an attribute or pass for an entity. Decoding the entities
once, from left to right, gives the text back, also when the text looks escaped already.
-/
namespace BookCatalog.Markup

/-! ## Entities -/

/-- A character as it is written between tags and in attributes. -/
def escapeChar : Char → List Char
  | '&' => ['&', 'a', 'm', 'p', ';']
  | '<' => ['&', 'l', 't', ';']
  | '>' => ['&', 'g', 't', ';']
  | '"' => ['&', 'q', 'u', 'o', 't', ';']
  | '\'' => ['&', '#', '3', '9', ';']
  | c => [c]

/-- A text as it is written between tags and in attributes. -/
def escape (text : String) : String := .ofList (text.toList.flatMap escapeChar)

/-- Reads each of the five entities as its character and everything else as it stands. -/
def unescapeChars : List Char → List Char
  | '&' :: 'a' :: 'm' :: 'p' :: ';' :: rest => '&' :: unescapeChars rest
  | '&' :: 'l' :: 't' :: ';' :: rest => '<' :: unescapeChars rest
  | '&' :: 'g' :: 't' :: ';' :: rest => '>' :: unescapeChars rest
  | '&' :: 'q' :: 'u' :: 'o' :: 't' :: ';' :: rest => '"' :: unescapeChars rest
  | '&' :: '#' :: '3' :: '9' :: ';' :: rest => '\'' :: unescapeChars rest
  | c :: rest => c :: unescapeChars rest
  | [] => []

/-- The text that an escaped text stands for. -/
def unescape (text : String) : String := .ofList (unescapeChars text.toList)

/-! ## Tags and texts -/

/-- An attribute of a tag. -/
structure Attribute where
  name : String
  value : String
  deriving DecidableEq

/-- A tag, or the text between two tags. -/
inductive Token where
  | opening (name : String) (attributes : List Attribute)
  | closing (name : String)
  /-- A tag that closes itself. -/
  | lone (name : String) (attributes : List Attribute)
  | text (content : String)
  deriving DecidableEq

/-- An attribute as it is written, with the blank in front. -/
def Attribute.write (item : Attribute) : String :=
  " " ++ item.name ++ "=\"" ++ escape item.value ++ "\""

/-- The attributes of a tag as they are written. -/
def writeAttributes (attributes : List Attribute) : String :=
  String.join (attributes.map Attribute.write)

/-- A tag or text as it is written. -/
def Token.write : Token → String
  | .opening name attributes => "<" ++ name ++ writeAttributes attributes ++ ">"
  | .closing name => "</" ++ name ++ ">"
  | .lone name attributes => "<" ++ name ++ writeAttributes attributes ++ "/>"
  | .text content => escape content

/-- A sequence of tags and texts as it is written. -/
def write (tokens : List Token) : String := String.join (tokens.map Token.write)

/-- A text inside a pair of tags. -/
def enclosed (name : String) (attributes : List Attribute) (content : String) : List Token :=
  [.opening name attributes, .text content, .closing name]

/-- The end of a line. -/
def lineEnd : Token := .text "\n"

end BookCatalog.Markup
