import CommonMark.Event
import CommonMark.Text.Blank

/-!
# Building a document

The builder takes events one by one and keeps what is open: blocks, innermost first with the document last,
and inlines. Text that comes directly in a container is put into a paragraph of its own, which the next
block closes. Constructs that a document cannot hold are left out and their text is kept. Link definitions
are merged by offset into the blocks of the finished document.
-/

namespace CommonMark

/-- Whether the source of a heading starts with number signs as a heading does: at most three spaces, one to six signs,
then white space or the end (`is_atx_heading`). -/
def isAtxHeading (source : Text) : Bool :=
  let indent := source.takeWhile (· = ' ')
  let rest := source.dropWhile (· = ' ')
  let signs := (rest.takeWhile (· = '#')).length
  decide (indent.length ≤ 3) && decide (1 ≤ signs) && decide (signs ≤ 6) &&
    match rest.dropWhile (· = '#') with
    | [] => true
    | c :: _ => c = ' ' || c = '\t' || c = '\n' || c = '\r'

/-- The style of a list, from the source of its first marker and the number it starts with (`list_kind`). -/
def listStyle (source : Text) (start : Option Nat) : ListStyle :=
  let marker := source.dropWhile fun c => c = ' ' || c = '\t'
  match start with
  | none => .bullet (marker.headD '-')
  | some n =>
    match marker.dropWhile fun c => '0' ≤ c && c ≤ '9' with
    | ')' :: _ => .ordered n .paren
    | _ => .ordered n .period

/-- An open block (`BlockFrame`). -/
structure Frame where
  block : Block
  /-- Byte offset at which the block starts. -/
  start : Nat
  /-- Whether the block is a paragraph made for text directly in a container. -/
  implicit : Bool := false

/-- What the children of an open inline end up in (`Container`). -/
inductive Wrapper where
  | emphasis
  | strong
  | link (target : Target)
  | image (target : Target)
  /-- Markup that a document cannot hold: the children go to the inline around it. -/
  | dissolved
  deriving DecidableEq, Repr

namespace Wrapper

/-- The inlines that children become when their wrapper closes (`TreeBuilder::close_inline`). -/
def close (cs : List Inline) : Wrapper → List Inline
  | emphasis => [.emphasis cs]
  | strong => [.strong cs]
  | link target => [.link target cs]
  | image target => [.image target cs]
  | dissolved => cs

end Wrapper

/-- An open inline. -/
structure InlineFrame where
  wrapper : Wrapper
  children : List Inline := []

/-- A title, unless it is empty (`non_empty`). -/
def nonEmpty? (t : Text) : Option Text := if t.isEmpty then none else some t

/-- A literal of one segment (`single`). -/
def Literal.single (s : Segment) : Literal := .segmented (Content.push {} s)

/-- Inlines with one more piece of text, which joins a text at the end (the last step of `TreeBuilder::text`). -/
def appendText (s : Segment) : List Inline → List Inline
  | [] => [.text (.single s)]
  | [.text (.segmented c)] => [.text (.segmented (c.push s))]
  | i :: is => i :: appendText s is

/-- What is known of a document while its events come in (`TreeBuilder`). -/
structure Builder where
  source : Text
  /-- Open blocks, innermost first. -/
  blocks : List Frame
  /-- Open inlines, innermost first. -/
  inlines : List InlineFrame := []
  /-- Whether each open list has had a paragraph in an item, innermost first. -/
  loose : List Bool := []
  /-- Byte offsets at which the finished blocks of the document start. -/
  starts : List Nat := []

namespace Builder

/-- The builder before the first event (`TreeBuilder::new`). -/
def new (source : Text) : Builder :=
  { source, blocks := [{ block := .ofKind .document, start := 0 }] }

/-- The source of a span, or nothing when the span cannot be read (`TreeBuilder::source_text`). -/
def sourceText (b : Builder) (span : Span) : Text := (span.read? b.source).getD []

/-- Where in the source a text of a span stands: the whole span, or the first place in it (the `offset` of
`TreeBuilder::segment`). -/
def offset? (b : Builder) (t : Text) (span : Span) : Option Nat :=
  let window := b.sourceText span
  if window = t then some span.start
  else if t.isEmpty then none
  else (Text.find? t window).map (span.start + ·)

/-- A segment that shows a text: a window of the source when the text stands in its span there, else a buffer of its
own (`TreeBuilder::segment`). -/
def segment (b : Builder) (t : Text) (span : Span) : Segment :=
  match b.offset? t span with
  | none => .whole t
  | some start =>
    match Segment.ofWindow b.source start (Text.bytes t) with
    | .ok s => s
    | .error _ => .whole t

/-- Puts a block below the innermost open one (`TreeBuilder::attach`). -/
def attach (b : Builder) (block : Block) (start : Nat) : Builder :=
  match b.blocks with
  | [] => b
  | f :: fs =>
    { b with
      blocks := { f with block.children := f.block.children ++ [block] } :: fs
      starts := if fs.isEmpty then b.starts ++ [start] else b.starts }

/-- Opens a block (`TreeBuilder::open`). -/
def openBlock (b : Builder) (block : Block) (start : Nat) : Builder :=
  { b with blocks := { block, start } :: b.blocks }

/-- Closes the innermost block, unless it is the document (`TreeBuilder::close`). -/
def closeBlock (b : Builder) : Builder :=
  match b.blocks with
  | f :: g :: fs => attach { b with blocks := g :: fs } f.block f.start
  | _ => b

/-- Closes the paragraph made for text, if it is open (`TreeBuilder::close_implicit`). -/
def closeImplicit (b : Builder) : Builder :=
  if b.blocks.head?.any (·.implicit) then b.closeBlock else b

/-- Changes the inlines that text goes to: those of the innermost open inline, else of the innermost block, in which a
container first gets a paragraph (`TreeBuilder::inline_target`). -/
def onInlines (b : Builder) (f : List Inline → List Inline) : Builder :=
  match b.inlines, b.blocks with
  | i :: is, _ => { b with inlines := { i with children := f i.children } :: is }
  | [], [] => b
  | [], top :: fs =>
    if top.block.kind.isContainer then
      let p : Frame := ⟨{ kind := .paragraph, inlines := f [] }, top.start, true⟩
      { b with blocks := p :: top :: fs }
    else { b with blocks := { top with block.inlines := f top.block.inlines } :: fs }

/-- Adds inlines (`TreeBuilder::push_inline`). -/
def pushInlines (b : Builder) (is : List Inline) : Builder := b.onInlines (· ++ is)

/-- Adds a segment to the literal of the innermost block, if that is a code or HTML block
(`TreeBuilder::literal_target`). -/
def pushLiteral? (b : Builder) (s : Segment) : Option Builder :=
  match b.blocks with
  | ⟨⟨kind, some (.segmented c), children, inlines⟩, start, implicit⟩ :: fs =>
    match kind with
    | .indentedCode | .fencedCode _ | .htmlBlock =>
      let block : Block := ⟨kind, some (.segmented (c.push s)), children, inlines⟩
      some { b with blocks := ⟨block, start, implicit⟩ :: fs }
    | _ => none
  | _ => none

/-- Takes text: into a literal, else onto a text at the end of the inlines, else as a new text
(`TreeBuilder::text`). -/
def text (b : Builder) (t : Text) (span : Span) : Builder :=
  let s := b.segment t span
  (b.pushLiteral? s).getD (b.onInlines (appendText s))

/-- Opens an inline (`TreeBuilder::open_inline`). -/
def openInline (b : Builder) (wrapper : Wrapper) : Builder :=
  { b with inlines := { wrapper } :: b.inlines }

/-- Closes the innermost inline, if one is open (`TreeBuilder::close_inline`). -/
def closeInline (b : Builder) : Builder :=
  match b.inlines with
  | [] => b
  | i :: is => pushInlines { b with inlines := is } (i.wrapper.close i.children)

/-- Marks the innermost open list as loose (the arm of `TreeBuilder::start` for a paragraph in an item). -/
def markLoose (b : Builder) : Builder :=
  match b.loose with
  | [] => b
  | _ :: ls => { b with loose := true :: ls }

/-- A block whose text is a literal, which is still empty (the arms of `TreeBuilder::start` for code and HTML). -/
def literalBlock (kind : BlockKind) : Block := { kind, literal := some (.segmented {}) }

/-- Takes the start of a construct (`TreeBuilder::start`). -/
def start (b : Builder) (span : Span) : Tag → Builder
  | .paragraph =>
    let b := b.closeImplicit
    let b := if b.blocks.head?.any (·.block.kind = .listItem) then b.markLoose else b
    b.openBlock (.ofKind .paragraph) span.start
  | .heading level =>
    let b := b.closeImplicit
    let n := level.toNat
    let kind := if isAtxHeading (b.sourceText span) then .atxHeader n else .setextHeader n
    b.openBlock (.ofKind kind) span.start
  | .blockQuote => b.closeImplicit.openBlock (.ofKind .blockQuote) span.start
  | .codeBlock none => b.closeImplicit.openBlock (literalBlock .indentedCode) span.start
  | .codeBlock (some info) =>
    b.closeImplicit.openBlock (literalBlock (.fencedCode info.trim)) span.start
  | .htmlBlock => b.closeImplicit.openBlock (literalBlock .htmlBlock) span.start
  | .list first =>
    let b := b.closeImplicit
    let style := listStyle (b.sourceText span) first
    { b with loose := false :: b.loose }.openBlock (.ofKind (.list style true)) span.start
  | .item => b.closeImplicit.openBlock (.ofKind .listItem) span.start
  | .emphasis => b.openInline .emphasis
  | .strong => b.openInline .strong
  | .link url title => b.openInline (.link ⟨url, nonEmpty? title⟩)
  | .image url title => b.openInline (.image ⟨url, nonEmpty? title⟩)
  | .strikethrough | .superscript | .subscript => b.openInline .dissolved
  | _ => b

/-- Settles whether the list that ends is tight: it is unless an item of it had a paragraph (the arm of
`TreeBuilder::end` for a list, between the paragraph and the list that it closes). -/
def settleList (b : Builder) : Builder :=
  let isLoose := b.loose.headD false
  let blocks :=
    match b.blocks with
    | ⟨⟨.list style _, literal, children, inlines⟩, start, implicit⟩ :: fs =>
      ⟨⟨.list style (!isLoose), literal, children, inlines⟩, start, implicit⟩ :: fs
    | fs => fs
  { b with blocks, loose := b.loose.tail }

/-- Takes the end of a construct (`TreeBuilder::end`). -/
def stop (b : Builder) : Tag → Builder
  | .paragraph | .heading _ | .blockQuote | .codeBlock _ | .htmlBlock => b.closeBlock
  | .item => b.closeImplicit.closeBlock
  | .list _ => b.closeImplicit.settleList.closeBlock
  | .emphasis | .strong | .link .. | .image .. | .strikethrough | .superscript | .subscript =>
    b.closeInline
  | _ => b

/-- Takes one event (`TreeBuilder::event`). -/
def event (b : Builder) (span : Span) : Event → Builder
  | .start tag => b.start span tag
  | .stop tag => b.stop tag
  | .text t | .inlineMath t | .displayMath t => b.text t span
  | .code t => b.pushInlines [.code (.single (b.segment t span))]
  | .html t =>
    let s := b.segment t span
    (b.pushLiteral? s).getD (b.pushInlines [.rawHtml (.single s)])
  | .inlineHtml t => b.pushInlines [.rawHtml (.single (b.segment t span))]
  | .softBreak => b.pushInlines [.softBreak]
  | .hardBreak => b.pushInlines [.lineBreak]
  | .rule => b.closeImplicit.attach (.ofKind .horizontalRuler) span.start
  | .footnoteReference _ | .taskListMarker _ => b

/-- Takes events in order (the loop of `parse_document`). -/
def events (b : Builder) (es : List (Event × Span)) : Builder :=
  es.foldl (fun b e => b.event e.2 e.1) b

/-- Closes all that is open but the document: the inlines first, innermost first (the two loops of
`TreeBuilder::finish`). -/
def closeAll (b : Builder) : Builder :=
  let b := b.inlines.length.repeat closeInline b
  (b.blocks.length - 1).repeat closeBlock b

end Builder

/-- Blocks with their offsets and definitions with theirs, merged: a definition comes before the first block that starts
after it (the merge in `TreeBuilder::finish`). -/
def placeDefinitions : List (Block × Nat) → List (Nat × Text) → List Block
  | [], ds => ds.map fun d => .definition d.2
  | (block, start) :: bs, ds =>
    (ds.takeWhile (·.1 < start)).map (fun d => .definition d.2) ++
      block :: placeDefinitions bs (ds.dropWhile (·.1 < start))

namespace Builder

/-- The document, with all closed that is still open and the definitions in their places (`TreeBuilder::finish`). -/
def finish (b : Builder) (definitions : List (Nat × Text)) : Block :=
  let b := b.closeAll
  let root := (b.blocks.head?.map (·.block)).getD (.ofKind .document)
  if definitions.isEmpty then root
  else { root with children := placeDefinitions (root.children.zip b.starts) definitions }

end Builder

/-- The document of a source, from its events and definitions (`parse_document`, once it has these from its parser). -/
def Block.ofEvents (source : Text) (es : List (Event × Span)) (definitions : List (Nat × Text)) : Block :=
  ((Builder.new source).events es).finish definitions

end CommonMark
