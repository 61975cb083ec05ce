import CommonMark.Proofs.Forest

/-!
# Well nested streams

A stream is well nested (`WellNested`) when each construct that starts also ends and stands where it may: blocks in the
document, in quotes, lists and items, running text in paragraphs, headings, items and markup, lines in code and HTML
blocks. What a document has no place for may hold what may stand around it. The stream of a forest is well nested
(`wellNested_eventsOfAll`); others are too, in which a list holds a paragraph or a quote holds an item.
-/

namespace CommonMark

/-- What may stand directly in a construct. -/
inductive Place where
  | blocks
  /-- Blocks and running text between them. -/
  | item
  /-- Running text. -/
  | text
  /-- Lines of code or HTML. -/
  | lines
  deriving DecidableEq, Repr

namespace Place

def hasBlocks : Place → Bool
  | blocks | item => true
  | text | lines => false

def hasText : Place → Bool
  | item | text => true
  | blocks | lines => false

/-- Whether an event that reports no start and no end may come in a place. -/
def takes (p : Place) : Event → Bool
  | .start _ | .stop _ => false
  | .rule => p.hasBlocks
  | .text _ | .html _ => p.hasText || p = lines
  | _ => p.hasText

end Place

namespace Tag

/-- A tag without what it says of its construct, as an end needs it. -/
def bare : Tag → Tag
  | heading _ => heading .h1
  | codeBlock _ => codeBlock none
  | list _ => list none
  | footnoteDefinition _ => footnoteDefinition []
  | link _ _ => link [] []
  | image _ _ => image [] []
  | tag => tag

/-- What may stand directly in the block that a tag opens; nothing, when it opens none. -/
def content? : Tag → Option Place
  | paragraph | heading _ => some .text
  | blockQuote | list _ => some .blocks
  | item => some .item
  | codeBlock _ | htmlBlock => some .lines
  | _ => none

/-- Whether a tag marks running text. -/
def isMarkup : Tag → Bool
  | emphasis | strong | strikethrough | superscript | subscript | link .. | image .. => true
  | _ => false

end Tag

/-- Whether a stream is well nested, where it may hold what may stand in a place. -/
inductive WellNested : Place → List (Event × Span) → Prop
  | nil (p : Place) : WellNested p []
  | leaf {p : Place} {e : Event} (span : Span) {es : List (Event × Span)} (he : p.takes e = true)
      (hes : WellNested p es) : WellNested p ((e, span) :: es)
  | block {p q : Place} {tag tag' : Tag} (opening closing : Span) {content es : List (Event × Span)}
      (hp : p.hasBlocks = true) (hq : tag.content? = some q) (htag : tag'.bare = tag.bare)
      (hcontent : WellNested q content) (hes : WellNested p es) :
      WellNested p ((.start tag, opening) :: (content ++ (.stop tag', closing) :: es))
  | markup {p : Place} {tag tag' : Tag} (opening closing : Span) {content es : List (Event × Span)}
      (hp : p.hasText = true) (hmarkup : tag.isMarkup = true) (htag : tag'.bare = tag.bare)
      (hcontent : WellNested .text content) (hes : WellNested p es) :
      WellNested p ((.start tag, opening) :: (content ++ (.stop tag', closing) :: es))
  /-- What a document has no place for leaves no trace. -/
  | other {p : Place} {tag tag' : Tag} (opening closing : Span) {content es : List (Event × Span)}
      (hp : p ≠ .lines) (hq : tag.content? = none) (hmarkup : tag.isMarkup = false) (htag : tag'.bare = tag.bare)
      (hcontent : WellNested p content) (hes : WellNested p es) :
      WellNested p ((.start tag, opening) :: (content ++ (.stop tag', closing) :: es))

/-! ## Forests -/

theorem enclosed_append (tag : Tag) (ends : Ends) (content es : List (Event × Span)) :
    enclosed tag ends content ++ es =
      (.start tag, ends.opening) :: (content ++ (.stop tag, ends.closing) :: es) := by
  simp [enclosed]

namespace InlineNode

theorem takes_leaf {p : Place} (hp : p.hasText = true) (l : InlineLeaf) : p.takes l.event = true := by
  cases l <;> simp [Place.takes, InlineLeaf.event, hp]

mutual

theorem wellNested_append {p : Place} (hp : p.hasText = true) : ∀ (n : InlineNode) {es : List (Event × Span)},
    WellNested p es → WellNested p (n.events ++ es)
  | leaf l span, es, h => .leaf span (takes_leaf hp l) h
  | marked tag ends content, es, h => by
    have hcontent : WellNested .text (eventsOfAll content ++ []) := wellNestedAll_append rfl content (.nil _)
    rw [List.append_nil] at hcontent
    rw [events, enclosed_append]
    exact .markup _ _ hp (by cases tag <;> rfl) rfl hcontent h

theorem wellNestedAll_append {p : Place} (hp : p.hasText = true) : ∀ (ns : List InlineNode)
    {es : List (Event × Span)}, WellNested p es → WellNested p (eventsOfAll ns ++ es)
  | [], es, h => h
  | n :: ns, es, h => by
    rw [eventsOfAll, List.append_assoc]
    exact wellNested_append hp n (wellNestedAll_append hp ns h)

end

theorem wellNested_eventsOfAll (ns : List InlineNode) : WellNested .text (eventsOfAll ns) := by
  rw [← List.append_nil (eventsOfAll ns)]
  exact wellNestedAll_append rfl ns (.nil _)

end InlineNode

theorem wellNested_lines (ls : List HtmlLine) : WellNested .lines (ls.map (·.event)) := by
  induction ls with
  | nil => exact .nil _
  | cons l ls ih =>
    obtain ⟨isText, t, span⟩ := l
    cases isText <;> exact .leaf span rfl ih

namespace BlockNode

mutual

theorem wellNested_append {p : Place} (hp : p.hasBlocks = true) : ∀ (n : BlockNode) {es : List (Event × Span)},
    WellNested p es → WellNested p (n.events ++ es)
  | paragraph ends content, es, h => by
    rw [events, enclosed_append]
    exact .block _ _ hp rfl rfl (InlineNode.wellNested_eventsOfAll content) h
  | heading level ends content, es, h => by
    rw [events, enclosed_append]
    exact .block _ _ hp rfl rfl (InlineNode.wellNested_eventsOfAll content) h
  | quote ends content, es, h => by
    have hcontent := wellNestedAll_append (p := .blocks) rfl content (.nil _)
    rw [List.append_nil] at hcontent
    rw [events, enclosed_append]
    exact .block _ _ hp rfl rfl hcontent h
  | code info ends lines, es, h => by
    have hcontent := wellNested_lines (lines.map fun l => ⟨true, l.1, l.2⟩)
    rw [List.map_map] at hcontent
    rw [events, enclosed_append]
    exact .block _ _ hp rfl rfl hcontent h
  | html ends lines, es, h => by
    rw [events, enclosed_append]
    exact .block _ _ hp rfl rfl (wellNested_lines lines) h
  | list first ends items, es, h => by
    have hcontent := wellNestedItems_append items (.nil _)
    rw [List.append_nil] at hcontent
    rw [events, enclosed_append]
    exact .block _ _ hp rfl rfl hcontent h
  | rule span, es, h => .leaf span hp h

theorem wellNestedAll_append {p : Place} (hp : p.hasBlocks = true) : ∀ (ns : List BlockNode)
    {es : List (Event × Span)}, WellNested p es → WellNested p (eventsOfAll ns ++ es)
  | [], es, h => h
  | n :: ns, es, h => by
    rw [eventsOfAll, List.append_assoc]
    exact wellNested_append hp n (wellNestedAll_append hp ns h)

theorem wellNestedItems_append : ∀ (is : List ItemNode) {es : List (Event × Span)},
    WellNested .blocks es → WellNested .blocks (eventsOfItems is ++ es)
  | [], es, h => h
  | .mk ends content :: is, es, h => by
    have hcontent := wellNestedParts_append content (.nil _)
    rw [List.append_nil] at hcontent
    rw [eventsOfItems, List.append_assoc, enclosed_append]
    exact .block _ _ rfl rfl rfl hcontent (wellNestedItems_append is h)

theorem wellNestedParts_append : ∀ (ps : List PartNode) {es : List (Event × Span)},
    WellNested .item es → WellNested .item (eventsOfParts ps ++ es)
  | [], es, h => h
  | .block n :: ps, es, h => by
    rw [eventsOfParts, List.append_assoc]
    exact wellNested_append rfl n (wellNestedParts_append ps h)
  | .inline n :: ps, es, h => by
    rw [eventsOfParts, List.append_assoc]
    exact InlineNode.wellNested_append rfl n (wellNestedParts_append ps h)

end

/-- The stream of a forest is well nested. -/
theorem wellNested_eventsOfAll (forest : List BlockNode) : WellNested .blocks (eventsOfAll forest) := by
  rw [← List.append_nil (eventsOfAll forest)]
  exact wellNestedAll_append rfl forest (.nil _)

end BlockNode

end CommonMark
