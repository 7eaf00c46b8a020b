import BookCatalog.Ranking.Top
import BookCatalog.Decimal.Style

/-!
A ranking as a table: place, identifier, score and a bar of up to twenty marks, four for each point
of the score. The column of identifiers is as wide as the longest one has bytes, and is filled up by
characters; an identifier never has more characters than bytes, so none is cut off.
-/
namespace BookCatalog.Ranking

/-- Number of marks for a score: four times the score, rounded to the nearest whole number with
halves upwards, and between zero and twenty. A score that is no number or infinite has no bar. -/
def barLength (score : Float) : Nat :=
  match Decimal.Value.ofFloat score with
  | .finite false mantissa exponent =>
    let (numerator, denominator) := Decimal.ratio 2 mantissa exponent
    min 20 (Decimal.roundDiv .up (4 * numerator) denominator)
  | _ => 0

/-- The width of the column of identifiers. -/
def columnWidth (entries : List (Entry Float)) : Nat :=
  (entries.map fun entry => entry.identifier.utf8ByteSize).foldr max 0

/-- A text with blanks in front up to a number of characters. -/
def alignRight (width : Nat) (text : String) : String := .ofList (text.toList.leftpad width ' ')

/-- A text with blanks behind up to a number of characters. -/
def alignLeft (width : Nat) (text : String) : String := .ofList (text.toList.rightpad width ' ')

/-- The row of an entry; places count from zero. -/
def row (width place : Nat) (entry : Entry Float) : String :=
  alignRight 3 (toString (place + 1)) ++ ". " ++ alignLeft width entry.identifier ++ "  " ++
    alignRight 5 (Decimal.fixedText 2 entry.score) ++ "  " ++
    .ofList (List.replicate (barLength entry.score) '#')

/-- The table of a ranking. -/
def table (entries : List (Entry Float)) : String :=
  if entries.isEmpty then "Nothing to rank."
  else
    let width := columnWidth entries
    "\n".intercalate (entries.zipIdx.map fun (entry, place) => row width place entry)

end BookCatalog.Ranking
