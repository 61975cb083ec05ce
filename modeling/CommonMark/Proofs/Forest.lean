import CommonMark.Document.Builder

/-!
# Event forests

What a stream of events says when every construct that starts also ends: a forest of blocks that hold
blocks, items or running text. `eventsOfAll` writes a forest out as events, so the streams it gives are the
well nested ones, and `trees` reads the forest as a document by recursion on its nodes, without a stack.
`Translation` shows that building from the events gives just these trees.
-/

namespace CommonMark

/-- The spans that the start and the end of a construct are reported with. -/
structure Ends where
  opening : Span
  closing : Span

/-- The events of a construct around those of what it holds. -/
def enclosed (tag : Tag) (ends : Ends) (es : List (Event × Span)) : List (Event × Span) :=
  (.start tag, ends.opening) :: es ++ [(.stop tag, ends.closing)]

/-- The segment that a builder makes of a text: it depends on the source and the span alone. -/
def sourceSegment (source t : Text) (span : Span) : Segment := (Builder.new source).segment t span

/-! ## Running text -/

/-- Running text that one event reports. -/
inductive InlineLeaf where
  | text (t : Text)
  | inlineMath (t : Text)
  | displayMath (t : Text)
  | code (t : Text)
  | html (t : Text)
  | softBreak
  | hardBreak
  | footnoteReference (label : Text)
  | taskListMarker (done : Bool)

namespace InlineLeaf

def event : InlineLeaf → Event
  | text t => .text t
  | inlineMath t => .inlineMath t
  | displayMath t => .displayMath t
  | code t => .code t
  | html t => .inlineHtml t
  | softBreak => .softBreak
  | hardBreak => .hardBreak
  | footnoteReference label => .footnoteReference label
  | taskListMarker done => .taskListMarker done

/-- Whether a document has a place for it. -/
def shows : InlineLeaf → Bool
  | footnoteReference _ | taskListMarker _ => false
  | _ => true

/-- Inlines with the leaf after them. Formulas are text, and text joins a text at the end. -/
def onto (source : Text) (span : Span) (is : List Inline) : InlineLeaf → List Inline
  | text t | inlineMath t | displayMath t => appendText (sourceSegment source t span) is
  | code t => is ++ [.code (.single (sourceSegment source t span))]
  | html t => is ++ [.rawHtml (.single (sourceSegment source t span))]
  | softBreak => is ++ [.softBreak]
  | hardBreak => is ++ [.lineBreak]
  | footnoteReference _ | taskListMarker _ => is

end InlineLeaf

/-- Markup of running text. -/
inductive InlineTag where
  | emphasis
  | strong
  | link (url title : Text)
  | image (url title : Text)
  | strikethrough
  | superscript
  | subscript

namespace InlineTag

def tag : InlineTag → Tag
  | emphasis => .emphasis
  | strong => .strong
  | link url title => .link url title
  | image url title => .image url title
  | strikethrough => .strikethrough
  | superscript => .superscript
  | subscript => .subscript

/-- What marked inlines become. The last three kinds of markup leave what they hold as it is. -/
def wrap (cs : List Inline) : InlineTag → List Inline
  | emphasis => [.emphasis cs]
  | strong => [.strong cs]
  | link url title => [.link ⟨url, nonEmpty? title⟩ cs]
  | image url title => [.image ⟨url, nonEmpty? title⟩ cs]
  | strikethrough | superscript | subscript => cs

end InlineTag

/-- A piece of running text with all that it holds. -/
inductive InlineNode where
  | leaf (l : InlineLeaf) (span : Span)
  | marked (tag : InlineTag) (ends : Ends) (content : List InlineNode)

namespace InlineNode

/-- Whether a document has a place for it; markup counts even when it holds nothing. -/
def shows : InlineNode → Bool
  | leaf l _ => l.shows
  | marked .. => true

mutual

def events : InlineNode → List (Event × Span)
  | leaf l span => [(l.event, span)]
  | marked tag ends content => enclosed tag.tag ends (eventsOfAll content)

def eventsOfAll : List InlineNode → List (Event × Span)
  | [] => []
  | n :: ns => events n ++ eventsOfAll ns

end

mutual

/-- Inlines with the node after them. -/
def onto (source : Text) (is : List Inline) : InlineNode → List Inline
  | leaf l span => l.onto source span is
  | marked tag _ content => is ++ tag.wrap (ontoAll source [] content)

/-- Inlines with the nodes after them. -/
def ontoAll (source : Text) (is : List Inline) : List InlineNode → List Inline
  | [] => is
  | n :: ns => ontoAll source (onto source is n) ns

end

end InlineNode

/-! ## Blocks -/

/-- A line of an HTML block, which an HTML event or a text event reports. -/
structure HtmlLine where
  isText : Bool
  text : Text
  span : Span

/-- The event of a line. -/
def HtmlLine.event (l : HtmlLine) : Event × Span :=
  (if l.isText then .text l.text else .html l.text, l.span)

mutual

/-- A block with all that it holds. -/
inductive BlockNode where
  | paragraph (ends : Ends) (content : List InlineNode)
  | heading (level : HeadingLevel) (ends : Ends) (content : List InlineNode)
  | quote (ends : Ends) (content : List BlockNode)
  /-- Indented code has no info string. -/
  | code (info : Option Text) (ends : Ends) (lines : List (Text × Span))
  | html (ends : Ends) (lines : List HtmlLine)
  /-- A list with a first number is ordered. -/
  | list (first : Option Nat) (ends : Ends) (items : List ItemNode)
  | rule (span : Span)

/-- An item of a list. -/
inductive ItemNode where
  | mk (ends : Ends) (content : List PartNode)

/-- What stands directly in an item. -/
inductive PartNode where
  | block (n : BlockNode)
  | inline (n : InlineNode)

end

/-- Whether the stream reports the block as a paragraph. -/
def BlockNode.isParagraph : BlockNode → Bool
  | paragraph .. => true
  | _ => false

def PartNode.isParagraph : PartNode → Bool
  | block n => n.isParagraph
  | inline _ => false

/-- Whether an item has a paragraph of its own. -/
def ItemNode.isLoose : ItemNode → Bool
  | mk _ content => content.any (·.isParagraph)

namespace BlockNode

/-- Where the block starts. -/
def start : BlockNode → Nat
  | paragraph ends _ | heading _ ends _ | quote ends _ | code _ ends _ | html ends _ | list _ ends _ =>
    ends.opening.start
  | rule span => span.start

mutual

def events : BlockNode → List (Event × Span)
  | paragraph ends content => enclosed .paragraph ends (InlineNode.eventsOfAll content)
  | heading level ends content => enclosed (.heading level) ends (InlineNode.eventsOfAll content)
  | quote ends content => enclosed .blockQuote ends (eventsOfAll content)
  | code info ends lines => enclosed (.codeBlock info) ends (lines.map fun l => (.text l.1, l.2))
  | html ends lines => enclosed .htmlBlock ends (lines.map (·.event))
  | list first ends items => enclosed (.list first) ends (eventsOfItems items)
  | rule span => [(.rule, span)]

/-- The stream of a forest. -/
def eventsOfAll : List BlockNode → List (Event × Span)
  | [] => []
  | n :: ns => events n ++ eventsOfAll ns

def eventsOfItems : List ItemNode → List (Event × Span)
  | [] => []
  | .mk ends content :: is => enclosed .item ends (eventsOfParts content) ++ eventsOfItems is

def eventsOfParts : List PartNode → List (Event × Span)
  | [] => []
  | .block n :: ps => events n ++ eventsOfParts ps
  | .inline n :: ps => n.events ++ eventsOfParts ps

end

/-- A heading is marked by number signs when its source starts so, else underlined. -/
def headingKind (source : Text) (level : HeadingLevel) (span : Span) : BlockKind :=
  if isAtxHeading ((span.read? source).getD []) then .atxHeader level.toNat else .setextHeader level.toNat

/-- Code without an info string is indented. -/
def codeKind : Option Text → BlockKind
  | none => .indentedCode
  | some info => .fencedCode info.trim

/-- A literal of the texts that events report. -/
def literalOf (source : Text) (lines : List (Text × Span)) : Option Literal :=
  some (.segmented (.ofSegments (lines.map fun l => sourceSegment source l.1 l.2)))

/-- A run of inlines directly in an item is a paragraph, unless nothing in it shows. -/
def runTrees (source : Text) (run : List InlineNode) : List Block :=
  if run.any (·.shows) then [{ kind := .paragraph, inlines := InlineNode.ontoAll source [] run }] else []

mutual

/-- The tree of a block. A list is tight unless an item of it has a paragraph of its own. -/
def tree (source : Text) : BlockNode → Block
  | paragraph _ content => { kind := .paragraph, inlines := InlineNode.ontoAll source [] content }
  | heading level ends content =>
    { kind := headingKind source level ends.opening, inlines := InlineNode.ontoAll source [] content }
  | quote _ content => { kind := .blockQuote, children := trees source content }
  | code info _ lines => { kind := codeKind info, literal := literalOf source lines }
  | html _ lines => { kind := .htmlBlock, literal := literalOf source (lines.map fun l => (l.text, l.span)) }
  | list first ends items =>
    { kind := .list (listStyle ((ends.opening.read? source).getD []) first) !(items.any (·.isLoose))
      children := itemTrees source items }
  | rule _ => .ofKind .horizontalRuler

/-- The trees of a forest. -/
def trees (source : Text) : List BlockNode → List Block
  | [] => []
  | n :: ns => tree source n :: trees source ns

def itemTrees (source : Text) : List ItemNode → List Block
  | [] => []
  | .mk _ content :: is =>
    { kind := .listItem, children := partTrees source [] content } :: itemTrees source is

/-- The blocks of an item: each block is one and so is each longest run of inlines, of which `run` is the
beginning. -/
def partTrees (source : Text) (run : List InlineNode) : List PartNode → List Block
  | [] => runTrees source run
  | .block n :: ps => runTrees source run ++ tree source n :: partTrees source [] ps
  | .inline n :: ps => partTrees source (run ++ [n]) ps

end

end BlockNode

end CommonMark
