/-!
The closed vocabularies of the catalog. There are two kinds of object. Each has a table of the
attributes that its records may have, in one fixed order, and fields of its own that a search can
name. A field knows its kind, so nothing can pair a field of books with authors.
-/
namespace BookCatalog

/-- A catalog object is a book or an author. -/
inductive Kind where
  | book
  | author
  deriving DecidableEq, Repr

/-- The name of a kind in queries, paths and messages. -/
def Kind.name : Kind → String
  | .book => "book"
  | .author => "author"

/-- The kind of a name, written exactly. -/
def Kind.ofName? (name : String) : Option Kind :=
  if name = Kind.book.name then some .book
  else if name = Kind.author.name then some .author
  else none

/-! ## Attributes -/

/-- The attributes of books, in the order in which records are listed. -/
def bookAttributes : List String :=
  ["book_id", "title", "book_url", "ISBN", "author_url", "author", "rating", "rating_count",
    "review_count", "image_url", "similar_books"]

/-- The attributes of authors, in the order in which records are listed. -/
def authorAttributes : List String :=
  ["author_id", "name", "author_url", "rating", "rating_count", "review_count", "image_url",
    "related_authors", "author_books"]

/-- The attributes that a record of a kind may have. -/
def Kind.attributes : Kind → List String
  | .book => bookAttributes
  | .author => authorAttributes

/-- Whether records of a kind may have an attribute. -/
def Kind.hasAttribute (kind : Kind) (name : String) : Bool := kind.attributes.contains name

/-- The attribute that rankings go by. -/
def scoreAttribute : String := "rating"

/-! ## Fields -/

/-- A field of books. -/
inductive BookField where
  | bookId
  | title
  | bookUrl
  | isbn
  | authorUrl
  | author
  | rating
  | ratingCount
  | reviewCount
  | imageUrl
  | similarBooks
  deriving DecidableEq

/-- A field of authors. -/
inductive AuthorField where
  | authorId
  | name
  | authorUrl
  | rating
  | ratingCount
  | reviewCount
  | imageUrl
  | relatedAuthors
  | authorBooks
  deriving DecidableEq

/-- The attribute that a field of books stands for. -/
def BookField.key : BookField → String
  | .bookId => "book_id"
  | .title => "title"
  | .bookUrl => "book_url"
  | .isbn => "ISBN"
  | .authorUrl => "author_url"
  | .author => "author"
  | .rating => "rating"
  | .ratingCount => "rating_count"
  | .reviewCount => "review_count"
  | .imageUrl => "image_url"
  | .similarBooks => "similar_books"

/-- The attribute that a field of authors stands for. -/
def AuthorField.key : AuthorField → String
  | .authorId => "author_id"
  | .name => "name"
  | .authorUrl => "author_url"
  | .rating => "rating"
  | .ratingCount => "rating_count"
  | .reviewCount => "review_count"
  | .imageUrl => "image_url"
  | .relatedAuthors => "related_authors"
  | .authorBooks => "author_books"

/-- A field of one of the two kinds. -/
inductive Field where
  | book (field : BookField)
  | author (field : AuthorField)
  deriving DecidableEq

namespace Field

/-- The kind that a field belongs to. -/
def kind : Field → Kind
  | .book _ => .book
  | .author _ => .author

/-- The attribute that a field stands for. -/
def key : Field → String
  | .book field => field.key
  | .author field => field.key

/-- The fields of a kind. -/
def ofKind : Kind → List Field
  | .book =>
    [.book .bookId, .book .title, .book .bookUrl, .book .isbn, .book .authorUrl, .book .author,
      .book .rating, .book .ratingCount, .book .reviewCount, .book .imageUrl, .book .similarBooks]
  | .author =>
    [.author .authorId, .author .name, .author .authorUrl, .author .rating, .author .ratingCount,
      .author .reviewCount, .author .imageUrl, .author .relatedAuthors, .author .authorBooks]

/-- The field that identifies a record of a kind. -/
def identifier : Kind → Field
  | .book => .book .bookId
  | .author => .author .authorId

end Field
end BookCatalog
