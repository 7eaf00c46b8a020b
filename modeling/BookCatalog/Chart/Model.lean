import BookCatalog.Chart.Quantity
import BookCatalog.Ranking.Top

/-!
The geometry of a ranking chart. Coordinates start at the top left corner and grow to the right and
downwards. A layout fixes the shape of the chart; projecting a ranking on it gives one bar, one
label and one tick for each entry, in the order of the ranking. Scores are not cut off at the edges
of the plot. The order of the operations is part of the rule, since doubles round at each of them.
-/
namespace BookCatalog.Chart

open Quantity Ranking

variable {α : Type}

/-- The shape of a chart. -/
structure Layout (α : Type) where
  width : α
  height : α
  /-- Where the vertical axis stands; bars start to its right. -/
  axisX : α
  /-- Gap between the vertical axis and the first bar. -/
  axisGap : α
  /-- The top of the scores; the bottom is zero. -/
  scoreMax : α
  /-- Share of the height that the scores span. -/
  plotFraction : α
  /-- Share of each bar's slot that stays empty. -/
  paddingFraction : α
  /-- Distance of the ticks of the vertical axis, as a score. -/
  tickStep : α

/-- A bar for an entry. -/
structure Bar (α : Type) where
  identifier : String
  score : α
  x : α
  y : α
  width : α
  height : α

/-- The text above a bar. -/
structure Label (α : Type) where
  text : String
  x : α
  y : α

/-- A tick of an axis. -/
structure Tick (α : Type) where
  label : String
  /-- Downwards for the vertical axis, to the right for the horizontal one. -/
  position : α

/-- An axis with its ticks. -/
structure Axis (α : Type) where
  originX : α
  originY : α
  ticks : List (Tick α)

/-- Everything there is to draw. -/
structure Model (α : Type) where
  width : α
  height : α
  bars : List (Bar α)
  labels : List (Label α)
  vertical : Axis α
  horizontal : Axis α

namespace Layout

variable [Quantity α]

/-- The usual shape of a chart. -/
def standard : Layout α where
  width := 1000.0
  height := 500.0
  axisX := 30.0
  axisGap := 5.0
  scoreMax := 5.0
  plotFraction := 0.8
  paddingFraction := 0.2
  tickStep := 0.5

/-- The height that the scores span. -/
def plotHeight (layout : Layout α) : α := layout.height * layout.plotFraction

/-- The distance of the horizontal axis from the bottom edge. -/
def baselineGap (layout : Layout α) : α := layout.height * (1.0 - layout.plotFraction) / 2.0

/-- Where the horizontal axis stands. -/
def baseline (layout : Layout α) : α := layout.height - layout.baselineGap

/-- The height of a score. -/
def scale (layout : Layout α) (score : α) : α := score / layout.scoreMax * layout.plotHeight

/-- The width that each of a number of bars has to itself. -/
def slot (layout : Layout α) (count : Nat) : α :=
  (layout.width - layout.axisX - layout.axisGap) / ofCount count

/-- The part of a slot that stays empty. -/
def padding (layout : Layout α) (count : Nat) : α := layout.slot count * layout.paddingFraction

/-- Where one of a number of slots starts, seen from the first. -/
def slotStart (layout : Layout α) (count index : Nat) : α := layout.slot count * ofCount index

/-- The bar of one of a number of entries. -/
def bar (layout : Layout α) (count index : Nat) (entry : Entry α) : Bar α where
  identifier := entry.identifier
  score := entry.score
  x := layout.slotStart count index + layout.axisX + layout.axisGap
  y := layout.baseline - layout.scale entry.score
  width := layout.slot count - layout.padding count
  height := layout.scale entry.score

/-- The label of one of a number of entries. -/
def label (layout : Layout α) (count index : Nat) (entry : Entry α) : Label α where
  text := plain entry.score
  x := layout.slotStart count index + layout.padding count + layout.axisX
  y := layout.baseline - layout.scale entry.score - 2.0

/-- The tick of the vertical axis after a number of steps. -/
def scoreTick (layout : Layout α) (step : Nat) : Tick α :=
  let value := ofCount step * layout.tickStep
  { label := onePlace value
    position := layout.baselineGap + layout.plotHeight - layout.scale value }

/-- The vertical axis, with a tick at every step from zero up to the nearest to the top score. -/
def verticalAxis (layout : Layout α) : Axis α where
  originX := layout.axisX
  originY := layout.baselineGap
  ticks := (List.range (nearestCount (layout.scoreMax / layout.tickStep) + 1)).map layout.scoreTick

/-- The distance between the first and the last tick of the horizontal axis. -/
def tickSpan (layout : Layout α) (count : Nat) : α :=
  layout.width - layout.axisX - layout.slot count * 0.5 - layout.axisX

/-- How far one of a number of ticks is from the first; a lone tick stands in the middle. -/
def tickOffset (layout : Layout α) (count index : Nat) : α :=
  if count = 1 then layout.tickSpan count / 2.0
  else layout.tickSpan count / ofCount (count - 1) * ofCount index

/-- The tick under one of a number of bars. -/
def entryTick (layout : Layout α) (count index : Nat) (entry : Entry α) : Tick α where
  label := entry.identifier
  position := layout.axisX + layout.axisX + layout.tickOffset count index

/-- The horizontal axis, with a tick for every entry. -/
def horizontalAxis (layout : Layout α) (entries : List (Entry α)) : Axis α where
  originX := layout.axisX
  originY := layout.baseline
  ticks := entries.zipIdx.map fun (entry, index) => layout.entryTick entries.length index entry

/-- The geometry of a ranking. -/
def project (layout : Layout α) (entries : List (Entry α)) : Model α where
  width := layout.width
  height := layout.height
  bars := entries.zipIdx.map fun (entry, index) => layout.bar entries.length index entry
  labels := entries.zipIdx.map fun (entry, index) => layout.label entries.length index entry
  vertical := layout.verticalAxis
  horizontal := layout.horizontalAxis entries

end Layout

/-- A tick as a document. -/
def Tick.toJson (tick : Tick Float) : Json :=
  .object [("label", .text tick.label), ("position", .ofFloat tick.position)]

/-- An axis as a document. -/
def Axis.toJson (axis : Axis Float) : Json :=
  .object [("origin_x", .ofFloat axis.originX), ("origin_y", .ofFloat axis.originY),
    ("ticks", .array (axis.ticks.map Tick.toJson))]

/-- A bar as a document. -/
def Bar.toJson (bar : Bar Float) : Json :=
  .object [("identifier", .text bar.identifier), ("score", .ofFloat bar.score),
    ("x", .ofFloat bar.x), ("y", .ofFloat bar.y), ("width", .ofFloat bar.width),
    ("height", .ofFloat bar.height)]

/-- A label as a document. -/
def Label.toJson (label : Label Float) : Json :=
  .object [("text", .text label.text), ("x", .ofFloat label.x), ("y", .ofFloat label.y)]

/-- A chart as a document. -/
def Model.toJson (model : Model Float) : Json :=
  .object [("width", .ofFloat model.width), ("height", .ofFloat model.height),
    ("bars", .array (model.bars.map Bar.toJson)),
    ("labels", .array (model.labels.map Label.toJson)),
    ("y_axis", model.vertical.toJson), ("x_axis", model.horizontal.toJson)]

end BookCatalog.Chart
