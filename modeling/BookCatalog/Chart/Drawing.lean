import BookCatalog.Chart.Model
import BookCatalog.Markup.Token

/-!
A chart as an SVG document: a title, the bars with the identifiers as their titles, the labels, and
the two axes with their ticks. Texts go into the document as texts and numbers as numbers, so a name
can never become a tag. A bar whose top or height is no finite number is left out, and so is a label
at no finite place; a bar of a score below zero hangs down from the horizontal axis.
-/
namespace BookCatalog.Chart

open Markup

/-- A coordinate with two places. -/
def coordinate (x : Float) : String := Decimal.fixedText 2 x

/-- The length of a tick. -/
def tickLength : Float := 6.0

/-- The title of a chart that shows a number of entries. -/
def caption (kind : Kind) (shown : Nat) : String :=
  "Top " ++ toString shown ++ " " ++ kind.name ++ "s by rating"

/-- A black line between two points. -/
def line (x1 y1 x2 y2 : Float) : Token :=
  .lone "line" [⟨"x1", coordinate x1⟩, ⟨"y1", coordinate y1⟩, ⟨"x2", coordinate x2⟩,
    ⟨"y2", coordinate y2⟩, ⟨"stroke", "black"⟩]

/-- The top and the height of a bar as they are drawn, if they can be. -/
def Bar.extent? (bar : Bar Float) : Option (Float × Float) :=
  if bar.y.isFinite && bar.height.isFinite then
    if bar.height < 0.0 then some (bar.y + bar.height, -bar.height) else some (bar.y, bar.height)
  else none

/-- A bar, with its identifier as the title. -/
def Bar.draw (bar : Bar Float) : List Token :=
  match bar.extent? with
  | none => []
  | some (y, height) =>
    [.opening "rect" [⟨"x", coordinate bar.x⟩, ⟨"y", coordinate y⟩,
      ⟨"width", coordinate bar.width⟩, ⟨"height", coordinate height⟩, ⟨"fill", "#4C7AA6"⟩]] ++
      enclosed "title" [] bar.identifier ++ [.closing "rect", lineEnd]

/-- A label. -/
def Label.draw (label : Label Float) : List Token :=
  if label.x.isFinite && label.y.isFinite then
    enclosed "text" [⟨"x", coordinate label.x⟩, ⟨"y", coordinate label.y⟩, ⟨"fill", "#A64C38"⟩]
      label.text ++ [lineEnd]
  else []

/-- A tick of the vertical axis at `x`, with its text on the left. -/
def Tick.drawVertical (x : Float) (tick : Tick Float) : List Token :=
  line (x - tickLength) tick.position x tick.position ::
    enclosed "text" [⟨"x", coordinate (x - tickLength - 3.0)⟩,
      ⟨"y", coordinate (tick.position + 3.0)⟩, ⟨"text-anchor", "end"⟩] tick.label ++ [lineEnd]

/-- The vertical axis, from its first tick to its last. -/
def Axis.drawVertical (axis : Axis Float) : List Token :=
  (match axis.ticks.head?, axis.ticks.getLast? with
    | some first, some last =>
      [line axis.originX first.position axis.originX last.position, lineEnd]
    | _, _ => []) ++
    axis.ticks.flatMap (Tick.drawVertical axis.originX)

/-- A tick of the horizontal axis at `y`, with its text below, turned. -/
def Tick.drawHorizontal (y : Float) (tick : Tick Float) : List Token :=
  line tick.position y tick.position (y + tickLength) ::
    enclosed "text"
      [⟨"transform", "translate(" ++ coordinate tick.position ++ "," ++
          coordinate (y + tickLength + 10.0) ++ ") rotate(-20)"⟩,
        ⟨"text-anchor", "end"⟩] tick.label ++ [lineEnd]

/-- The horizontal axis across a chart of the given width. -/
def Axis.drawHorizontal (width : Float) (axis : Axis Float) : List Token :=
  [line axis.originX axis.originY (width - axis.originX) axis.originY, lineEnd] ++
    axis.ticks.flatMap (Tick.drawHorizontal axis.originY)

/-- The tags and texts of a chart. -/
def Model.draw (model : Model Float) (caption : String) : List Token :=
  [.opening "svg" [⟨"xmlns", "http://www.w3.org/2000/svg"⟩,
      ⟨"width", Decimal.plainText model.width⟩, ⟨"height", Decimal.plainText model.height⟩,
      ⟨"font-family", "sans-serif"⟩, ⟨"font-size", "10"⟩], lineEnd] ++
    enclosed "title" [] caption ++ [lineEnd] ++
    model.bars.flatMap Bar.draw ++ model.labels.flatMap Label.draw ++
    model.vertical.drawVertical ++ model.horizontal.drawHorizontal model.width ++
    [.closing "svg", lineEnd]

/-- A chart as a document. -/
def Model.render (model : Model Float) (caption : String) : String :=
  Markup.write (model.draw caption)

end BookCatalog.Chart
