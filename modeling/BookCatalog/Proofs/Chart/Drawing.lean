import BookCatalog.Chart.Drawing
import BookCatalog.Proofs.Markup.Reading

/-!
A drawn chart as a reader of markup finds it. Whatever the texts of the chart say, the tags are those
that its geometry asks for, and each text comes back as the whole content of the element that it was
meant for. Nothing is assumed of the texts, of the number of parts, or of the coordinates.
-/
namespace BookCatalog.Markup

/-! ## What a reader finds in a document -/

/-- The tags of a document. -/
def tags (tokens : List Token) : List Token := tokens.filter (!·.isText)

/-- A tag without its attributes. -/
def Token.bare : Token → Token
  | .opening name _ => .opening name []
  | .lone name _ => .lone name []
  | token => token

/-- The texts of a document, in their order. With each goes whether it is all that an element holds;
an element that holds nothing holds the empty text. -/
def texts : List Token → List (String × Bool)
  | .opening _ _ :: .text content :: .closing _ :: rest => (content, true) :: texts rest
  | .opening _ _ :: .closing _ :: rest => ("", true) :: texts rest
  | .text content :: rest => (content, false) :: texts rest
  | _ :: rest => texts rest
  | [] => []

/-- The texts of the elements that hold a text and nothing else. -/
def contents (tokens : List Token) : List String := ((texts tokens).filter (·.2)).map (·.1)

/-- The texts that stand between other tags. -/
def between (tokens : List Token) : List String := ((texts tokens).filter (!·.2)).map (·.1)

/-- A tag, what stands inside, and the closing tag. -/
def around (name : String) (inside : List Token) : List Token :=
  .opening name [] :: inside ++ [.closing name]

theorem tags_append (tokens more : List Token) : tags (tokens ++ more) = tags tokens ++ tags more :=
  List.filter_append ..

/-- Empty texts do not matter to the tags. -/
theorem tags_visible (tokens : List Token) : tags (tokens.filter Token.isVisible) = tags tokens := by
  rw [tags, List.filter_filter, tags]
  apply List.filter_congr
  intro token _
  cases token <;> simp [Token.isText, Token.isVisible]

/-- A part of a document with these tags, and with these texts as contents of its elements. Between
its tags there are only line ends. A reader finds this in the part whatever comes behind it. -/
structure Shows (part outline : List Token) (said : List String) : Prop where
  legible : Legible part
  tags_eq : (tags part).map Token.bare = outline
  texts_eq : ∃ own : List (String × Bool),
    (∀ rest, texts (part.filter Token.isVisible ++ rest) = own ++ texts rest) ∧
      (own.filter (·.2)).map (·.1) = said ∧ ∀ loose ∈ own.filter (!·.2), loose.1 = "\n"

theorem Shows.nil : Shows [] [] [] := ⟨.nil, rfl, [], by simp⟩

theorem Shows.append {part more outline outline' : List Token} {said said' : List String}
    (first : Shows part outline said) (second : Shows more outline' said') :
    Shows (part ++ more) (outline ++ outline') (said ++ said') where
  legible := first.legible.append second.legible
  tags_eq := by rw [tags_append, List.map_append, first.tags_eq, second.tags_eq]
  texts_eq := by
    obtain ⟨own, found, rfl, loose⟩ := first.texts_eq
    obtain ⟨own', found', rfl, loose'⟩ := second.texts_eq
    refine ⟨own ++ own', fun rest => ?_, by simp, fun text member => ?_⟩
    · rw [List.filter_append, List.append_assoc, found, found', List.append_assoc]
    · rw [List.filter_append, List.mem_append] at member
      rcases member with member | member
      · exact loose text member
      · exact loose' text member

/-- The parts that are written for a list of items, of which some may leave nothing. -/
theorem Shows.each {α : Type} {write : α → List Token} (shown : α → Bool) {outline : List Token}
    {said : α → String} (writes : ∀ item, shown item = true → Shows (write item) outline [said item])
    (skips : ∀ item, shown item = false → write item = []) (items : List α) :
    Shows (items.flatMap write) ((items.filter shown).flatMap fun _ => outline)
      ((items.filter shown).map said) := by
  induction items with
  | nil => exact .nil
  | cons item items ih =>
    rw [List.flatMap_cons]
    cases drawn : shown item with
    | true =>
      rw [List.filter_cons_of_pos drawn]
      exact (writes item drawn).append ih
    | false =>
      rw [List.filter_cons_of_neg (by simp [drawn]), skips item drawn]
      exact ih

theorem Shows.found {part outline : List Token} {said : List String} (whole : Shows part outline said) :
    contents (part.filter Token.isVisible) = said ∧
      ∀ text ∈ between (part.filter Token.isVisible), text = "\n" := by
  obtain ⟨own, found, said, loose⟩ := whole.texts_eq
  have all : texts (part.filter Token.isVisible) = own := by simpa [texts] using found []
  rw [contents, between, all]
  refine ⟨said, fun text member => ?_⟩
  obtain ⟨entry, inside, rfl⟩ := List.mem_map.mp member
  exact loose entry inside

section Pieces

variable {name outer : String} {attributes others : List Attribute} {part outline : List Token}
  {said : List String}

/-- A tag that opens no element stands for itself. -/
theorem Shows.tag {token : Token} (named : token.isNamed = true) (tag : token.isText = false)
    (alone : ∀ name attributes, token ≠ .opening name attributes) : Shows [token] [token.bare] [] := by
  refine ⟨⟨by simpa using named, by simp, by simpa using tag⟩, by simp [tags, tag], [], fun rest => ?_,
    rfl, by simp⟩
  cases token with
  | text content => simp [Token.isText] at tag
  | opening name attributes => exact absurd rfl (alone name attributes)
  | closing name => simp [List.filter_cons, Token.isVisible, texts]
  | lone name attributes => simp [List.filter_cons, Token.isVisible, texts]

/-- An element that holds a text. -/
theorem Shows.element (named : isName name = true)
    (items : attributes.all (fun item => isName item.name) = true) (content : String) :
    Shows (enclosed name attributes content) (around name []) [content] := by
  refine ⟨⟨?_, ?_, ?_⟩, ?_, [(content, true)], fun rest => ?_, rfl, by simp⟩
  · simpa [enclosed, Token.isNamed, named] using items
  · simp [enclosed, Token.isText]
  · simp [enclosed, Token.isText]
  · simp [tags, enclosed, Token.isText, Token.bare, around]
  · by_cases empty : content = "" <;>
      simp [enclosed, List.filter_cons, Token.isVisible, empty, texts]

/-- An element that holds one with a text. -/
theorem Shows.nested (named : isName outer = true)
    (items : others.all (fun item => isName item.name) = true) {content : String}
    (inner : Shows (enclosed name attributes content) (around name []) [content]) :
    Shows (.opening outer others :: enclosed name attributes content ++ [.closing outer])
      (around outer (around name [])) [content] := by
  have inside := inner.legible.named
  refine ⟨⟨?_, ?_, ?_⟩, ?_, [(content, true)], fun rest => ?_, rfl, by simp⟩
  · rw [List.cons_append, List.all_cons, List.all_append, inside]
    simpa [Token.isNamed, named] using items
  · simp [enclosed, Token.isText]
  · simp [Token.isText]
  · simp [tags, enclosed, Token.isText, Token.bare, around]
  · by_cases empty : content = "" <;>
      simp [enclosed, List.filter_cons, Token.isVisible, empty, texts]

/-- A part that ends in a tag may be followed by the end of a line. -/
theorem Shows.line (shown : Shows part outline said) {last : Token} (ends : part.getLast? = some last)
    (tag : last.isText = false) : Shows (part ++ [lineEnd]) outline said := by
  obtain ⟨own, found, said, loose⟩ := shown.texts_eq
  refine ⟨⟨?_, ?_, ?_⟩, ?_, own ++ [("\n", false)], fun rest => ?_, by simpa using said, ?_⟩
  · rw [List.all_append, shown.legible.named]
    rfl
  · refine List.isChain_append.mpr ⟨shown.legible.apart, .singleton _, ?_⟩
    intro token member _ _ text
    rw [ends, Option.mem_some_iff] at member
    rw [← member, tag] at text
    contradiction
  · obtain ⟨first, rest, rfl⟩ := List.exists_cons_of_ne_nil (l := part) (by rintro rfl; simp at ends)
    exact shown.legible.begins
  · rw [tags_append, ← shown.tags_eq]
    simp [tags, lineEnd, Token.isText]
  · rw [List.filter_append, List.append_assoc, found, List.append_assoc]
    simp [lineEnd, List.filter_cons, Token.isVisible, texts]
  · intro text member
    rw [List.filter_append, List.mem_append] at member
    rcases member with member | member
    · exact loose text member
    · simp_all

end Pieces

end BookCatalog.Markup

namespace BookCatalog.Chart

open Markup

/-! ## The parts of a drawing -/

/-- Whether a bar can be drawn. -/
def Bar.isDrawn (bar : Bar Float) : Bool := bar.y.isFinite && bar.height.isFinite

/-- Whether a label can be drawn. -/
def Label.isDrawn (label : Label Float) : Bool := label.x.isFinite && label.y.isFinite

/-- The tags of a tick. -/
def tickTags : List Token := .lone "line" [] :: around "text" []

theorem Bar.draw_shows (bar : Bar Float) (drawn : bar.isDrawn = true) :
    Shows bar.draw (around "rect" (around "title" [])) [bar.identifier] := by
  obtain ⟨y, height, extent⟩ : ∃ y height, bar.extent? = some (y, height) := by
    rw [isDrawn] at drawn
    rw [extent?, if_pos drawn]
    split <;> exact ⟨_, _, rfl⟩
  have title : Shows (enclosed "title" [] bar.identifier) (around "title" []) [bar.identifier] :=
    .element (by decide) rfl _
  rw [draw, extent]
  exact (title.nested (by decide) (by simp [isName, isReserved])).line rfl rfl

theorem Bar.draw_of_not_isDrawn (bar : Bar Float) (hidden : bar.isDrawn = false) : bar.draw = [] := by
  rw [isDrawn] at hidden
  simp [draw, extent?, hidden]

theorem Label.draw_shows (label : Label Float) (drawn : label.isDrawn = true) :
    Shows label.draw (around "text" []) [label.text] := by
  rw [isDrawn] at drawn
  rw [draw, if_pos drawn]
  exact (Shows.element (by decide) (by simp [isName, isReserved]) _).line rfl rfl

theorem Label.draw_of_not_isDrawn (label : Label Float) (hidden : label.isDrawn = false) :
    label.draw = [] := by
  rw [isDrawn] at hidden
  simp [draw, hidden]

theorem line_shows (x1 y1 x2 y2 : Float) : Shows [line x1 y1 x2 y2] [.lone "line" []] [] :=
  .tag (by simp [line, Token.isNamed, isName, isReserved]) rfl (by simp [line])

theorem tick_shows (x1 y1 x2 y2 : Float) (attributes : List Attribute) (content : String)
    (named : attributes.all (fun item => isName item.name) = true) :
    Shows (line x1 y1 x2 y2 :: enclosed "text" attributes content ++ [lineEnd]) tickTags [content] :=
  ((line_shows x1 y1 x2 y2).append (.element (by decide) named content)).line rfl rfl

theorem Tick.drawVertical_shows (x : Float) (tick : Tick Float) :
    Shows (tick.drawVertical x) tickTags [tick.label] :=
  tick_shows _ _ _ _ _ _ (by simp [isName, isReserved])

theorem Tick.drawHorizontal_shows (y : Float) (tick : Tick Float) :
    Shows (tick.drawHorizontal y) tickTags [tick.label] :=
  tick_shows _ _ _ _ _ _ (by simp [isName, isReserved])

/-- How a document with a caption begins. -/
theorem head_shows (attributes : List Attribute) (caption : String)
    (named : attributes.all (fun item => isName item.name) = true) :
    Shows ([.opening "svg" attributes, lineEnd] ++ enclosed "title" [] caption ++ [lineEnd])
      (.opening "svg" [] :: around "title" []) [caption] := by
  refine ⟨⟨?_, ?_, ?_⟩, ?_, [("\n", false), (caption, true), ("\n", false)], fun rest => ?_, rfl, by simp⟩
  · rw [List.all_eq_true] at named
    simpa [enclosed, lineEnd, Token.isNamed, isName, isReserved] using named
  · simp [enclosed, lineEnd, Token.isText]
  · simp [Token.isText]
  · simp [tags, enclosed, lineEnd, Token.isText, Token.bare, around]
  · by_cases empty : caption = "" <;>
      simp [enclosed, lineEnd, List.filter_cons, Token.isVisible, empty, texts]

theorem foot_shows : Shows [.closing "svg", lineEnd] [.closing "svg"] [] := by
  have closing : Shows [.closing "svg"] [.closing "svg"] [] := .tag (by decide) rfl (by simp)
  exact closing.line rfl rfl

/-! ## Axes -/

/-- The parts that every tick of an axis leaves. -/
theorem ticks_show {write : Tick Float → List Token}
    (each : ∀ tick, Shows (write tick) tickTags [tick.label]) (ticks : List (Tick Float)) :
    Shows (ticks.flatMap write) (ticks.flatMap fun _ => tickTags) (ticks.map Tick.label) := by
  have every : ticks.filter (fun _ => true) = ticks := by simp
  have shown := Shows.each (fun _ => true) (fun tick _ => each tick) (fun _ hidden => nomatch hidden)
    ticks
  rwa [every] at shown

theorem Axis.drawVertical_shows (axis : Axis Float) :
    Shows axis.drawVertical
      ((if axis.ticks.isEmpty then [] else [.lone "line" []]) ++ axis.ticks.flatMap fun _ => tickTags)
      (axis.ticks.map Tick.label) := by
  have ticks := ticks_show (Tick.drawVertical_shows axis.originX) axis.ticks
  cases marks : axis.ticks with
  | nil => simpa [drawVertical, marks] using Shows.nil
  | cons first rest =>
    have last : axis.ticks.getLast? = some ((first :: rest).getLast (by simp)) := by
      rw [marks, List.getLast?_eq_some_getLast]
    rw [← marks, drawVertical, last]
    simpa [marks] using ((line_shows ..).line rfl rfl).append ticks

theorem Axis.drawHorizontal_shows (width : Float) (axis : Axis Float) :
    Shows (axis.drawHorizontal width) (.lone "line" [] :: axis.ticks.flatMap fun _ => tickTags)
      (axis.ticks.map Tick.label) := by
  have ticks := ticks_show (Tick.drawHorizontal_shows axis.originY) axis.ticks
  exact ((line_shows ..).line rfl rfl).append ticks

/-! ## Whole drawings -/

/-- The tags that the geometry of a chart asks for, without their attributes. -/
def Model.outline (model : Model Float) : List Token :=
  around "svg" <|
    around "title" [] ++
    (model.bars.filter Bar.isDrawn).flatMap (fun _ => around "rect" (around "title" [])) ++
    (model.labels.filter Label.isDrawn).flatMap (fun _ => around "text" []) ++
    (if model.vertical.ticks.isEmpty then [] else [.lone "line" []]) ++
    model.vertical.ticks.flatMap (fun _ => tickTags) ++
    [.lone "line" []] ++
    model.horizontal.ticks.flatMap (fun _ => tickTags)

/-- The texts that a drawing is to show, in their order. -/
def Model.shownTexts (model : Model Float) (caption : String) : List String :=
  caption :: (model.bars.filter Bar.isDrawn).map Bar.identifier ++
    (model.labels.filter Label.isDrawn).map Label.text ++
    model.vertical.ticks.map Tick.label ++ model.horizontal.ticks.map Tick.label

theorem Model.draw_shows (model : Model Float) (caption : String) :
    Shows (model.draw caption) model.outline (model.shownTexts caption) := by
  have head := head_shows [⟨"xmlns", "http://www.w3.org/2000/svg"⟩,
    ⟨"width", Decimal.plainText model.width⟩, ⟨"height", Decimal.plainText model.height⟩,
    ⟨"font-family", "sans-serif"⟩, ⟨"font-size", "10"⟩] caption (by simp [isName, isReserved])
  have bars := Shows.each Bar.isDrawn Bar.draw_shows Bar.draw_of_not_isDrawn model.bars
  have labels := Shows.each Label.isDrawn Label.draw_shows Label.draw_of_not_isDrawn model.labels
  have vertical := model.vertical.drawVertical_shows
  have horizontal := model.horizontal.drawHorizontal_shows model.width
  have whole := ((((head.append bars).append labels).append vertical).append horizontal).append foot_shows
  convert whole using 1
  · simp [draw]
  · simp [outline, around]
  · simp [shownTexts]

/-! ## Texts do not move tags -/

/-- A bar with an empty identifier. -/
def Bar.withoutText (bar : Bar Float) : Bar Float := { bar with identifier := "" }

/-- A label with an empty text. -/
def Label.withoutText (label : Label Float) : Label Float := { label with text := "" }

/-- A tick with an empty label. -/
def Tick.withoutText (tick : Tick Float) : Tick Float := { tick with label := "" }

/-- An axis with empty labels. -/
def Axis.withoutTexts (axis : Axis Float) : Axis Float :=
  { axis with ticks := axis.ticks.map Tick.withoutText }

/-- A chart with empty texts. -/
def Model.withoutTexts (model : Model Float) : Model Float :=
  { model with
    bars := model.bars.map Bar.withoutText
    labels := model.labels.map Label.withoutText
    vertical := model.vertical.withoutTexts
    horizontal := model.horizontal.withoutTexts }

theorem tags_enclosed (name : String) (attributes : List Attribute) (content : String) :
    tags (enclosed name attributes content) = [.opening name attributes, .closing name] := by
  simp [tags, enclosed, Token.isText]

theorem Bar.tags_withoutText (bar : Bar Float) : tags bar.withoutText.draw = tags bar.draw := by
  have same : bar.withoutText.extent? = bar.extent? := rfl
  rw [draw, draw, same]
  cases bar.extent? with
  | none => rfl
  | some extent => simp only [tags_append, tags_enclosed, withoutText]

theorem Label.tags_withoutText (label : Label Float) : tags label.withoutText.draw = tags label.draw := by
  by_cases drawn : (label.x.isFinite && label.y.isFinite) = true <;>
    simp only [draw, withoutText, drawn, Bool.false_eq_true, ↓reduceIte, tags_append, tags_enclosed]

theorem Tick.tags_drawVertical (x : Float) (tick : Tick Float) :
    tags (tick.withoutText.drawVertical x) = tags (tick.drawVertical x) := by
  simp [drawVertical, withoutText, tags, enclosed, List.filter_cons, Token.isText]

theorem Tick.tags_drawHorizontal (y : Float) (tick : Tick Float) :
    tags (tick.withoutText.drawHorizontal y) = tags (tick.drawHorizontal y) := by
  simp [drawHorizontal, withoutText, tags, enclosed, List.filter_cons, Token.isText]

/-- The tags of a list of parts are not moved if those of each part are not. -/
theorem tags_flatMap_map {α : Type} {write : α → List Token} {strip : α → α}
    (same : ∀ item, tags (write (strip item)) = tags (write item)) (items : List α) :
    tags ((items.map strip).flatMap write) = tags (items.flatMap write) := by
  induction items with
  | nil => rfl
  | cons item items ih => simp [tags_append, same, ih]

theorem Axis.tags_drawVertical (axis : Axis Float) :
    tags axis.withoutTexts.drawVertical = tags axis.drawVertical := by
  have ticks := tags_flatMap_map (Tick.tags_drawVertical axis.originX) axis.ticks
  simp only [drawVertical, tags_append, withoutTexts, ticks, List.head?_map, List.getLast?_map]
  cases axis.ticks.head? <;> cases axis.ticks.getLast? <;> rfl

theorem Axis.tags_drawHorizontal (width : Float) (axis : Axis Float) :
    tags (axis.withoutTexts.drawHorizontal width) = tags (axis.drawHorizontal width) := by
  have ticks := tags_flatMap_map (Tick.tags_drawHorizontal axis.originY) axis.ticks
  simp only [drawHorizontal, tags_append, withoutTexts, ticks]

/-- The tags of a drawing, with their attributes, come from the geometry alone. -/
theorem Model.tags_draw (model : Model Float) (caption : String) :
    tags (model.draw caption) = tags (model.withoutTexts.draw "") := by
  have bars := tags_flatMap_map Bar.tags_withoutText model.bars
  have labels := tags_flatMap_map Label.tags_withoutText model.labels
  have vertical := model.vertical.tags_drawVertical
  have horizontal := model.horizontal.tags_drawHorizontal model.width
  simp only [draw, tags_append, tags_enclosed, withoutTexts, bars, labels, vertical, horizontal]

/-- **No text of a chart leaves its place.** Read as markup, a drawn chart has exactly the tags that its
geometry asks for: the title, a `rect` with a title of its own for each bar of finite top and height, a
`text` for each label at a finite place, and a `line` and a `text` for each tick, behind the line of the
axis. What the elements hold is, entities decoded, the caption and the texts of these parts, and there
is nothing but line ends between them. A chart that differs in its texts only has the same tags with
the same attributes. -/
theorem drawing_confines_texts (model : Model Float) (caption : String) :
    ∃ tokens, read? (model.render caption) = some tokens ∧
      (tags tokens).map Token.bare = model.outline ∧
      contents tokens = model.shownTexts caption ∧
      (∀ text ∈ between tokens, text = "\n") ∧
      ∀ (other : Model Float) (otherCaption : String), other.withoutTexts = model.withoutTexts →
        ∃ tokens', read? (other.render otherCaption) = some tokens' ∧ tags tokens' = tags tokens := by
  have whole := model.draw_shows caption
  refine ⟨_, read?_write whole.legible, ?_, whole.found.1, whole.found.2, ?_⟩
  · rw [tags_visible, whole.tags_eq]
  · intro other otherCaption same
    refine ⟨_, read?_write (other.draw_shows otherCaption).legible, ?_⟩
    rw [tags_visible, tags_visible, other.tags_draw, same, ← model.tags_draw]

/-- A label made of tags and entities is shown as it is and adds no tag. -/
theorem drawing_confines_script :
    let chart (label : String) : Model Float :=
      ⟨1.0, 1.0, [], [], ⟨0.0, 0.0, [⟨label, 0.0⟩]⟩, ⟨0.0, 0.0, []⟩⟩
    ∃ tokens, read? ((chart "</text><script>&lt;").render "\"") = some tokens ∧
      contents tokens = ["\"", "</text><script>&lt;"] ∧
      ∃ tokens', read? ((chart "").render "") = some tokens' ∧ tags tokens' = tags tokens := by
  intro chart
  obtain ⟨tokens, found, -, said, -, same⟩ :=
    drawing_confines_texts (chart "</text><script>&lt;") "\""
  exact ⟨tokens, found, said, same (chart "") "" rfl⟩

end BookCatalog.Chart
