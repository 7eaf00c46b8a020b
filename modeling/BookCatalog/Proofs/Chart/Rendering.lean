import BookCatalog.Proofs.Chart.Extent
import BookCatalog.Proofs.Decimal.Fixed

/-!
What a drawing asks of those who draw it. Whatever the scores, a drawn chart has no attribute but numbers written out
plainly, places made of two such numbers, and words that no score has a part in. Its bars have a width and a height
that can be drawn, and they are those of the entries whose height is finite; the labels are too.
-/
namespace BookCatalog.Markup

/-! ## Elements and attributes -/

/-- The attributes of a tag. -/
def Token.attributes : Token → List Attribute
  | .opening _ attributes => attributes
  | .lone _ attributes => attributes
  | _ => []

/-- An element as it begins, with the first text inside. -/
structure Element where
  name : String
  attributes : List Attribute
  said : String

/-- The text that tags and texts begin with, inside whatever is opened before it. -/
def leading : List Token → String
  | .opening _ _ :: rest => leading rest
  | .text content :: _ => content
  | _ => ""

/-- The elements of a document, in the order in which they begin. -/
def elements : List Token → List Element
  | .opening name attributes :: rest => ⟨name, attributes, leading rest⟩ :: elements rest
  | .lone name attributes :: rest => ⟨name, attributes, ""⟩ :: elements rest
  | _ :: rest => elements rest
  | [] => []

/-- The value of an attribute. -/
def Element.value? (element : Element) (name : String) : Option String :=
  (element.attributes.find? (·.name == name)).map (·.value)

/-- The number that an attribute holds. -/
def Element.number? (element : Element) (name : String) : Option ℚ :=
  (element.value? name).bind Decimal.written?

/-- The attributes that hold words. -/
def wordings : List Attribute :=
  [⟨"xmlns", "http://www.w3.org/2000/svg"⟩, ⟨"font-family", "sans-serif"⟩, ⟨"fill", "#4C7AA6"⟩,
    ⟨"fill", "#A64C38"⟩, ⟨"stroke", "black"⟩, ⟨"text-anchor", "end"⟩]

/-- The names of the attributes that hold a number. -/
def numeric : List String := ["x", "y", "width", "height", "x1", "y1", "x2", "y2", "font-size"]

/-- An attribute with fixed words, with a number that is written out plainly, or with a place of two such numbers. -/
inductive Attribute.IsPlain : Attribute → Prop
  | wording {item : Attribute} (fixed : item ∈ wordings) : item.IsPlain
  | number {name text : String} {size : ℚ} (named : name ∈ numeric) (written : Decimal.written? text = some size) :
      IsPlain ⟨name, text⟩
  | place {across down : String} {x y : ℚ} (written : Decimal.written? across = some x)
      (written' : Decimal.written? down = some y) :
      IsPlain ⟨"transform", "translate(" ++ across ++ "," ++ down ++ ") rotate(-20)"⟩

/-- Every attribute of every tag is plain. -/
def ArePlain (tokens : List Token) : Prop := ∀ token ∈ tokens, ∀ item ∈ token.attributes, item.IsPlain

end BookCatalog.Markup

namespace BookCatalog.Chart

open Markup Double

/-- Whether an element is a bar. -/
def isBar (element : Element) : Bool := element.name == "rect"

/-- Whether an element is the label of an entry; the labels of ticks have no colour. -/
def isLabel (element : Element) : Bool := element.name == "text" && (element.value? "fill").isSome

/-- A part of a drawing that is plain and has these bars and labels. A reader finds them in the part whatever comes
behind it. -/
structure Marks (part : List Token) (bars labels : List Element) : Prop where
  plain : ArePlain part
  elements_eq : ∃ own, (∀ rest, elements (part.filter Token.isVisible ++ rest) = own ++ elements rest) ∧
    own.filter isBar = bars ∧ own.filter isLabel = labels

variable {part more : List Token} {bars bars' labels labels' : List Element}

theorem Marks.nil : Marks [] [] [] := ⟨List.forall_mem_nil _, [], by simp⟩

theorem Marks.append (first : Marks part bars labels) (second : Marks more bars' labels') :
    Marks (part ++ more) (bars ++ bars') (labels ++ labels') where
  plain := List.forall_mem_append.mpr ⟨first.plain, second.plain⟩
  elements_eq := by
    obtain ⟨own, found, rfl, rfl⟩ := first.elements_eq
    obtain ⟨own', found', rfl, rfl⟩ := second.elements_eq
    refine ⟨own ++ own', fun rest => ?_, List.filter_append .., List.filter_append ..⟩
    rw [List.filter_append, List.append_assoc, found, found', List.append_assoc]

theorem Marks.each {α : Type} {write : α → List Token} {bars labels : α → List Element} {items : List α}
    (every : ∀ item ∈ items, Marks (write item) (bars item) (labels item)) :
    Marks (items.flatMap write) (items.flatMap bars) (items.flatMap labels) := by
  induction items with
  | nil => exact .nil
  | cons item items ih =>
    obtain ⟨first, others⟩ := List.forall_mem_cons.mp every
    exact first.append (ih others)

theorem flatMap_nothing {α : Type} (items : List α) : (items.flatMap fun _ => ([] : List Element)) = [] :=
  List.flatMap_eq_nil_iff.mpr fun _ _ => rfl

theorem Marks.none {α : Type} {write : α → List Token} {items : List α}
    (every : ∀ item ∈ items, Marks (write item) [] []) : Marks (items.flatMap write) [] [] := by
  simpa only [flatMap_nothing] using Marks.each every

theorem Marks.found (whole : Marks part bars labels) :
    (elements (part.filter Token.isVisible)).filter isBar = bars ∧
      (elements (part.filter Token.isVisible)).filter isLabel = labels := by
  obtain ⟨own, found, rfl, rfl⟩ := whole.elements_eq
  have all : elements (part.filter Token.isVisible) = own := by simpa [elements] using found []
  rw [all]
  exact ⟨rfl, rfl⟩

/-! ## Pieces -/

section Pieces

variable {name outer : String} {attributes others : List Attribute}

theorem Marks.element (plain : ∀ item ∈ attributes, item.IsPlain) (content : String) :
    Marks (enclosed name attributes content) ([⟨name, attributes, content⟩].filter isBar)
      ([⟨name, attributes, content⟩].filter isLabel) := by
  refine ⟨?_, [⟨name, attributes, content⟩], fun rest => ?_, rfl, rfl⟩
  · simpa [ArePlain, enclosed, Token.attributes] using plain
  · by_cases empty : content = "" <;>
      simp [enclosed, List.filter_cons, Token.isVisible, empty, elements, leading]

/-- An element around a title. -/
theorem Marks.titled (plain : ∀ item ∈ others, item.IsPlain) (content : String) :
    Marks (.opening outer others :: enclosed "title" [] content ++ [.closing outer])
      ([⟨outer, others, content⟩].filter isBar) ([⟨outer, others, content⟩].filter isLabel) := by
  refine ⟨?_, [⟨outer, others, content⟩, ⟨"title", [], content⟩], fun rest => ?_, ?_, ?_⟩
  · simpa [ArePlain, enclosed, Token.attributes] using plain
  · by_cases empty : content = "" <;>
      simp [enclosed, List.filter_cons, Token.isVisible, empty, elements, leading]
  · simp [List.filter_cons, isBar]
  · simp [List.filter_cons, isLabel]

theorem Marks.line (marks : Marks part bars labels) : Marks (part ++ [lineEnd]) bars labels := by
  have ending : Marks [lineEnd] [] [] :=
    ⟨by simp [ArePlain, lineEnd, Token.attributes], [],
      fun rest => by simp [lineEnd, List.filter_cons, Token.isVisible, elements], rfl, rfl⟩
  simpa using marks.append ending

theorem coordinate_isPlain {x : Float} (named : name ∈ numeric) (finite : x.isFinite = true) :
    Attribute.IsPlain ⟨name, coordinate x⟩ := by
  obtain ⟨size, written, -⟩ := Decimal.exists_written_fixedText finite two_ne_zero
  exact .number named written

theorem line_marks {x1 y1 x2 y2 : Float} (finite1 : x1.isFinite = true) (finite2 : y1.isFinite = true)
    (finite3 : x2.isFinite = true) (finite4 : y2.isFinite = true) : Marks [line x1 y1 x2 y2] [] [] := by
  refine ⟨?_, [⟨"line", _, ""⟩], fun rest => rfl, by simp [isBar], by simp [isLabel]⟩
  simp only [ArePlain, line, Token.attributes, List.forall_mem_singleton, List.forall_mem_cons]
  exact ⟨coordinate_isPlain (by decide) finite1, coordinate_isPlain (by decide) finite2,
    coordinate_isPlain (by decide) finite3, coordinate_isPlain (by decide) finite4, .wording (by decide)⟩

end Pieces

/-! ## Bars and labels -/

/-- A bar as an element, if it is drawn. -/
def Bar.element? (bar : Bar Float) : Option Element :=
  bar.extent?.map fun (y, height) =>
    ⟨"rect", [⟨"x", coordinate bar.x⟩, ⟨"y", coordinate y⟩, ⟨"width", coordinate bar.width⟩,
      ⟨"height", coordinate height⟩, ⟨"fill", "#4C7AA6"⟩], bar.identifier⟩

/-- A label as an element, if it is drawn. -/
def Label.element? (label : Label Float) : Option Element :=
  if label.isDrawn then
    some ⟨"text", [⟨"x", coordinate label.x⟩, ⟨"y", coordinate label.y⟩, ⟨"fill", "#A64C38"⟩], label.text⟩
  else none

/-- A bar whose coordinates, as far as it is drawn, are finite and span no negative size. -/
structure Bar.IsPlaced (bar : Bar Float) : Prop where
  x : bar.x.isFinite = true
  width : bar.width.isFinite = true
  width_nonneg : 0 ≤ amount (parts bar.width)
  extent {top height : Float} (taken : bar.extent? = some (top, height)) :
    top.isFinite = true ∧ height.isFinite = true ∧ 0 ≤ amount (parts height)

theorem Bar.draw_marks {bar : Bar Float} (placed : bar.IsPlaced) : Marks bar.draw bar.element?.toList [] := by
  rw [draw, element?]
  cases taken : bar.extent? with
  | none => exact .nil
  | some extent =>
    obtain ⟨top, height⟩ := extent
    obtain ⟨finite, finite', -⟩ := placed.extent taken
    refine (Marks.titled ?_ bar.identifier).line
    simp only [List.forall_mem_cons]
    exact ⟨coordinate_isPlain (by decide) placed.x, coordinate_isPlain (by decide) finite,
      coordinate_isPlain (by decide) placed.width, coordinate_isPlain (by decide) finite',
      .wording (by decide), List.forall_mem_nil _⟩

theorem Label.draw_marks (label : Label Float) : Marks label.draw [] label.element?.toList := by
  rw [draw, element?, isDrawn]
  split_ifs with drawn
  · obtain ⟨x, y⟩ := Bool.and_eq_true_iff.mp drawn
    refine (Marks.element ?_ label.text).line
    simp only [List.forall_mem_cons]
    exact ⟨coordinate_isPlain (by decide) x, coordinate_isPlain (by decide) y, .wording (by decide),
      List.forall_mem_nil _⟩
  · exact .nil

/-! ## Axes -/

/-- How far out the places of a drawing are at most, as a power of two. -/
def farthest : ℕ := 78

/-- An axis with its ticks at places that the lines and texts around them do not lead out of the finite doubles. -/
structure Axis.IsPlaced (axis : Axis Float) : Prop where
  originX : IsWithin farthest axis.originX
  originY : IsWithin farthest axis.originY
  ticks : ∀ tick ∈ axis.ticks, IsWithin farthest tick.position

theorem tickLength_isWithin : IsWithin farthest tickLength := by decide +kernel

theorem Tick.drawVertical_marks {x : Float} {tick : Tick Float} (axis : IsWithin farthest x)
    (place : IsWithin farthest tick.position) : Marks (tick.drawVertical x) [] [] := by
  have gap : IsWithin farthest (3.0 : Float) := by decide +kernel
  have left := axis.sub tickLength_isWithin (by decide)
  have text := left.sub gap (by decide)
  have below := place.add gap (by decide)
  refine ((line_marks left.finite place.finite axis.finite place.finite).append (Marks.element ?_ tick.label)).line
  simp only [List.forall_mem_cons]
  exact ⟨coordinate_isPlain (by decide) text.finite, coordinate_isPlain (by decide) below.finite,
    .wording (by decide), List.forall_mem_nil _⟩

theorem Tick.drawHorizontal_marks {y : Float} {tick : Tick Float} (axis : IsWithin farthest y)
    (place : IsWithin farthest tick.position) : Marks (tick.drawHorizontal y) [] [] := by
  have gap : IsWithin farthest (10.0 : Float) := by decide +kernel
  have below := axis.add tickLength_isWithin (by decide)
  have text := below.add gap (by decide)
  obtain ⟨across, written, -⟩ := Decimal.exists_written_fixedText place.finite two_ne_zero
  obtain ⟨down, written', -⟩ := Decimal.exists_written_fixedText text.finite two_ne_zero
  refine ((line_marks place.finite axis.finite place.finite below.finite).append (Marks.element ?_ tick.label)).line
  simp only [List.forall_mem_cons]
  exact ⟨.place written written', .wording (by decide), List.forall_mem_nil _⟩

theorem Axis.drawVertical_marks {axis : Axis Float} (placed : axis.IsPlaced) : Marks axis.drawVertical [] [] := by
  have ticks := Marks.none fun tick member => Tick.drawVertical_marks placed.originX (placed.ticks tick member)
  rw [drawVertical]
  cases begins : axis.ticks.head? with
  | none => exact Marks.nil.append ticks
  | some first =>
    cases ends : axis.ticks.getLast? with
    | none => exact Marks.nil.append ticks
    | some last =>
      have finite := (placed.ticks first (List.mem_of_head? begins)).finite
      have finite' := (placed.ticks last (List.mem_of_getLast? ends)).finite
      exact (line_marks placed.originX.finite finite placed.originX.finite finite').line.append ticks

theorem Axis.drawHorizontal_marks {axis : Axis Float} {width : Float} (placed : axis.IsPlaced)
    (edge : IsWithin farthest width) : Marks (axis.drawHorizontal width) [] [] := by
  have ticks := Marks.none fun tick member => Tick.drawHorizontal_marks placed.originY (placed.ticks tick member)
  have right := edge.sub placed.originX (by decide)
  have along := (line_marks placed.originX.finite placed.originY.finite right.finite placed.originY.finite).line
  exact along.append ticks

/-! ## Whole drawings -/

/-- A chart whose parts are placed, and whose size can be written out. -/
structure Model.IsPlaced (model : Model Float) : Prop where
  edge : IsWithin farthest model.width
  width : (Decimal.written? (Decimal.plainText model.width)).isSome = true
  height : (Decimal.written? (Decimal.plainText model.height)).isSome = true
  bars : ∀ bar ∈ model.bars, bar.IsPlaced
  vertical : model.vertical.IsPlaced
  horizontal : model.horizontal.IsPlaced

theorem svg_marks {attributes : List Attribute} (plain : ∀ item ∈ attributes, item.IsPlain) :
    Marks [.opening "svg" attributes, lineEnd] [] [] := by
  refine ⟨?_, [⟨"svg", attributes, "\n"⟩], fun rest => ?_, by simp [isBar], by simp [isLabel]⟩
  · simpa [ArePlain, lineEnd, Token.attributes] using plain
  · simp [lineEnd, List.filter_cons, Token.isVisible, elements, leading]

/-- How a drawing begins. -/
theorem head_marks {model : Model Float} (placed : model.IsPlaced) (caption : String) :
    Marks ([.opening "svg" [⟨"xmlns", "http://www.w3.org/2000/svg"⟩, ⟨"width", Decimal.plainText model.width⟩,
      ⟨"height", Decimal.plainText model.height⟩, ⟨"font-family", "sans-serif"⟩, ⟨"font-size", "10"⟩], lineEnd] ++
      enclosed "title" [] caption ++ [lineEnd]) [] [] := by
  obtain ⟨width, written⟩ := Option.isSome_iff_exists.mp placed.width
  obtain ⟨height, written'⟩ := Option.isSome_iff_exists.mp placed.height
  have size : Decimal.written? "10" = some 10 := by decide +kernel
  have title : Marks (enclosed "title" [] caption) [] [] := Marks.element (List.forall_mem_nil _) caption
  refine ((svg_marks ?_).append title).line
  simp only [List.forall_mem_cons]
  exact ⟨.wording (by decide), .number (by decide) written, .number (by decide) written', .wording (by decide),
    .number (by decide) size, List.forall_mem_nil _⟩

theorem Model.draw_marks {model : Model Float} (placed : model.IsPlaced) (caption : String) :
    Marks (model.draw caption) (model.bars.filterMap Bar.element?) (model.labels.filterMap Label.element?) := by
  have bars := Marks.each fun bar member => Bar.draw_marks (placed.bars bar member)
  have labels := Marks.each fun label (_ : label ∈ model.labels) => label.draw_marks
  have vertical := Axis.drawVertical_marks placed.vertical
  have horizontal := Axis.drawHorizontal_marks placed.horizontal placed.edge
  have foot : Marks [.closing "svg"] [] [] := ⟨by simp [ArePlain, Token.attributes], [], fun rest => rfl, rfl, rfl⟩
  -- Only bars and labels leave marks; what the other parts leave is empty and drops out of the lists.
  have whole := (((((head_marks placed caption).append bars).append labels).append vertical).append
    horizontal).append foot.line
  simp only [flatMap_nothing, ← List.filterMap_eq_flatMap_toList, List.nil_append, List.append_nil] at whole
  exact whole

/-! ## What is shown of each entry -/

/-- What an element says, and where it stands. -/
def spot (element : Element) : String × Option String := (element.said, element.value? "x")

theorem Bar.map_spot (bar : Bar Float) :
    bar.element?.map spot = if bar.isDrawn then some (bar.identifier, some (coordinate bar.x)) else none := by
  rw [← isSome_extent?, element?]
  cases bar.extent? <;> rfl

theorem Label.map_spot (label : Label Float) :
    label.element?.map spot = if label.isDrawn then some (label.text, some (coordinate label.x)) else none := by
  rw [element?]
  split_ifs <;> rfl

/-- The size of a bar is written out, and it is not below zero. -/
theorem Bar.IsPlaced.size {bar : Bar Float} (placed : bar.IsPlaced) {element : Element}
    (drawn : bar.element? = some element) : ∃ width height, element.number? "width" = some width ∧
      element.number? "height" = some height ∧ 0 ≤ width ∧ 0 ≤ height := by
  obtain ⟨⟨top, height⟩, taken, rfl⟩ := Option.map_eq_some_iff.mp drawn
  obtain ⟨-, finite, nonneg⟩ := placed.extent taken
  obtain ⟨width, written, right⟩ := Decimal.exists_written_fixedText placed.width two_ne_zero
  obtain ⟨tall, written', down⟩ := Decimal.exists_written_fixedText finite two_ne_zero
  exact ⟨width, tall, written, written', right placed.width_nonneg, down nonneg⟩

/-- If each item that is shown is seen in its spot, these are the spots of the elements in their order. -/
theorem map_spot_filterMap {α : Type} {write : α → Option Element} {shown : α → Bool}
    {seen : α → String × Option String} {items : List α}
    (each : ∀ item ∈ items, (write item).map spot = if shown item then some (seen item) else none) :
    (items.filterMap write).map spot = (items.filter shown).map seen := by
  rw [List.map_filterMap, ← List.filterMap_eq_map, List.filterMap_filter]
  exact List.filterMap_congr each

namespace Layout

variable {layout : Layout Float} {entries : List (Ranking.Entry Float)}

theorem IsBounded.takes (bounded : layout.IsBounded) (fits : entries.length ≤ largestCount)
    {placed : Ranking.Entry Float × ℕ} (member : placed ∈ entries.zipIdx) :
    layout.Takes entries.length ∧ placed.2 < entries.length := by
  have inside := List.snd_lt_of_mem_zipIdx member
  exact ⟨⟨bounded, Nat.zero_lt_of_lt inside, fits⟩, inside⟩

theorem IsBounded.project_isPlaced (bounded : layout.IsBounded) (fits : entries.length ≤ largestCount)
    (width : (Decimal.written? (Decimal.plainText layout.width)).isSome = true)
    (height : (Decimal.written? (Decimal.plainText layout.height)).isSome = true) :
    (layout.project entries).IsPlaced where
  edge := bounded.width.mono (by decide)
  width := width
  height := height
  bars bar member := by
    obtain ⟨placed, inside, rfl⟩ := List.mem_map.mp member
    obtain ⟨takes, index⟩ := bounded.takes fits inside
    exact {
      x := (takes.bar_x placed.1 index).finite
      width := (takes.bar_width placed.1).finite
      width_nonneg := takes.bar_width_nonneg placed.1
      extent := bounded.extent }
  vertical := {
    originX := bounded.axisX.mono (by decide)
    originY := bounded.baselineGap.mono (by decide)
    ticks := fun tick member => (bounded.scoreTicks tick member).mono (by decide) }
  horizontal := {
    originX := bounded.axisX.mono (by decide)
    originY := bounded.baseline.mono (by decide)
    ticks := fun tick member => by
      obtain ⟨placed, inside, rfl⟩ := List.mem_map.mp member
      obtain ⟨takes, index⟩ := bounded.takes fits inside
      exact takes.entryTick placed.1 index }

/-- The entries whose height is finite, with their places. -/
def shown (layout : Layout Float) (entries : List (Ranking.Entry Float)) : List (Ranking.Entry Float × ℕ) :=
  entries.zipIdx.filter fun (entry, _) => (layout.scale entry.score).isFinite

theorem map_spot_bars (bounded : layout.IsBounded) :
    ((layout.project entries).bars.filterMap Bar.element?).map spot =
      (layout.shown entries).map fun (entry, index) =>
        (entry.identifier, some (coordinate (layout.bar entries.length index entry).x)) := by
  rw [project, List.filterMap_map]
  refine map_spot_filterMap fun (entry, index) _ => ?_
  have seen := (layout.bar entries.length index entry).map_spot
  rw [bounded.bar_isDrawn] at seen
  exact seen

theorem map_spot_labels (bounded : layout.IsBounded) (fits : entries.length ≤ largestCount) :
    ((layout.project entries).labels.filterMap Label.element?).map spot =
      (layout.shown entries).map fun (entry, index) =>
        (Decimal.plainText entry.score, some (coordinate (layout.label entries.length index entry).x)) := by
  rw [project, List.filterMap_map]
  refine map_spot_filterMap fun (entry, index) member => ?_
  obtain ⟨takes, inside⟩ := bounded.takes fits member
  have seen := (layout.label entries.length index entry).map_spot
  rw [takes.label_isDrawn inside] at seen
  exact seen

/-- **A chart of any ranking can be drawn again**, for as many entries as can be counted. Whatever the scores, infinite
ones and what is no number among them, and whatever the texts, the document can be read, and every attribute in it is
fixed words, a number written out plainly, or a place of two such numbers. Its bars are those of the entries whose
height is finite, in their order, its labels are those of the same entries, and no bar has a width or a height below
zero. -/
theorem charts_are_plain (entries : List (Ranking.Entry Float)) (caption : String)
    (fits : entries.length ≤ largestCount) :
    let layout : Layout Float := standard
    ∃ tokens, read? ((layout.project entries).render caption) = some tokens ∧ ArePlain tokens ∧
      ((elements tokens).filter isBar).map spot = ((layout.shown entries).map fun (entry, index) =>
        (entry.identifier, some (coordinate (layout.bar entries.length index entry).x))) ∧
      ((elements tokens).filter isLabel).map spot = ((layout.shown entries).map fun (entry, index) =>
        (Decimal.plainText entry.score, some (coordinate (layout.label entries.length index entry).x))) ∧
      ∀ bar ∈ (elements tokens).filter isBar, ∃ width height, bar.number? "width" = some width ∧
        bar.number? "height" = some height ∧ 0 ≤ width ∧ 0 ≤ height := by
  intro layout
  have bounded : layout.IsBounded := standard_isBounded
  have placed : (layout.project entries).IsPlaced :=
    bounded.project_isPlaced fits (by decide +kernel) (by decide +kernel)
  have marks := Model.draw_marks placed caption
  obtain ⟨bars, labels⟩ := marks.found
  refine ⟨_, read?_write (Model.draw_shows _ caption).legible, ?_, ?_, ?_, ?_⟩
  · exact fun token member => marks.plain token (List.mem_of_mem_filter member)
  · rw [bars, map_spot_bars bounded]
  · rw [labels, map_spot_labels bounded fits]
  · rw [bars]
    intro element member
    obtain ⟨bar, inside, drawn⟩ := List.mem_filterMap.mp member
    exact (placed.bars bar inside).size drawn

/-- Of scores that are no number, infinite, out of bounds, below zero and ordinary, the last two have bars. -/
theorem charts_are_plain_mixed :
    let entries : List (Ranking.Entry Float) := [⟨"none", 0.0 / 0.0⟩, ⟨"high", 1.0 / 0.0⟩, ⟨"low", -1.0 / 0.0⟩,
      ⟨"huge", 1e308⟩, ⟨"under", -2.5⟩, ⟨"fair", 4.0⟩]
    ∃ tokens, read? (((standard : Layout Float).project entries).render "mixed") = some tokens ∧ ArePlain tokens ∧
      (((elements tokens).filter isBar).map spot).map Prod.fst = ["under", "fair"] ∧
      (((elements tokens).filter isLabel).map spot).map Prod.fst = ["-2.5", "4"] := by
  intro entries
  obtain ⟨tokens, found, plain, bars, labels, -⟩ := charts_are_plain entries "mixed" (by decide)
  refine ⟨tokens, found, plain, ?_, ?_⟩
  · rw [bars]
    decide +kernel
  · rw [labels]
    decide +kernel

end Layout

end BookCatalog.Chart
