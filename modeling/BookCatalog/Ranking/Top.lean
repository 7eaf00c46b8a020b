import BookCatalog.Decimal.Reader
import BookCatalog.Ranking.Sort
import BookCatalog.Record.Listing
import BookCatalog.Text.Basic

/-!
The best records by an attribute. The attribute is read as a double as far as it can be, and what
cannot be read is no number, which ranks below every real score. Records without the attribute are
left out; the others are sorted upwards, turned round and cut off, so records that tie come out in
the reverse of their order.
-/
namespace BookCatalog

/-- The double of a number. -/
def Number.toFloat : Number → Float
  | .whole n => Decimal.ofInt n
  | .double x => x

/-- The score that a value stands for. A blank text and `null` count as zero, `true` as one. -/
def Json.score : Json → Float
  | .number n => n.toFloat
  | .text s =>
    let trimmed := Text.trim s
    if trimmed.isEmpty then 0.0 else (Decimal.readFloat? trimmed).getD (0.0 / 0.0)
  | .bool flag => if flag then 1.0 else 0.0
  | .null => 0.0
  | .array _ | .object _ => 0.0 / 0.0

namespace Ranking

/-- A record reduced to what a ranking shows. -/
structure Entry (α : Type) where
  identifier : String
  score : α

/-- The order of scores: no number is below every number, and two of them tie. -/
def isLess (score other : Float) : Bool :=
  match score.isNaN, other.isNaN with
  | true, false => true
  | false, false => score < other
  | _, _ => false

/-- The entry of a record, if it has the attribute that is ranked by. -/
def Entry.ofRecord? (key : String) (record : Record) : Option (Entry Float) :=
  (record.get? key).map fun value => ⟨record.identifier?.getD "", value.score⟩

/-- The entries of the records that have an attribute, in their order. -/
def eligible (records : List Record) (key : String) : List (Entry Float) :=
  records.filterMap (Entry.ofRecord? key)

/-- The `k` best records by an attribute, the best first. -/
def top (records : List Record) (key : String) (k : Nat) : List (Entry Float) :=
  let entries := eligible records key
  let sorted := partitionSort (fun entry other => isLess entry.score other.score) entries
  sorted.reverse.take (min k entries.length)

/-- A ranking as a document. -/
def toJson (entries : List (Entry Float)) : Json :=
  .array (entries.map fun entry =>
    .object [("identifier", .text entry.identifier), ("score", .ofFloat entry.score)])

end Ranking
end BookCatalog
