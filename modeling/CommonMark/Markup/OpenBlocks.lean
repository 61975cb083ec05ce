import CommonMark.Markup.Draft

/-!
# Reading blocks line by line

What is open is kept innermost first, and each line goes on in it, closes some of it and may open more. A
leaf takes lines until one of them does not belong to it; that line is then read as the start of something
new. A list becomes loose when a blank line parts two of its items, or two blocks of an item.
-/

namespace CommonMark.Markup

/-- What an open block is. -/
inductive Holder where
  | quote
  | item (indent : Nat)
  | list (mark : Char) (first : Option Nat) (tight : Bool)
  deriving DecidableEq, Repr

namespace Holder

/-- The way in which the block goes on over lines. -/
def container : Holder → Container
  | quote => .quote
  | item indent => .item indent
  | list .. => .list

/-- The draft of the block. -/
def draft (span : Span) (children : List Draft) : Holder → Draft
  | quote => .quote span children
  | item _ => .item span children
  | list _ first tight => .list span first tight children

end Holder

/-- An open block that holds blocks. -/
structure OpenBlock where
  holder : Holder
  start : Nat
  /-- The closed blocks in it, newest first. -/
  children : List Draft := []

/-- A leaf that may take more lines. Lines and events are newest first. -/
inductive OpenLeaf where
  | none
  | paragraph (start : Nat) (lines : List Line)
  | fenced (start indent : Nat) (fence : Fence) (info : Text) (content : List Located)
  /-- Of the content, what stands after the last line that is not blank is not kept. -/
  | indented (start : Nat) (content kept : List Located)
  | html (start : Nat) (ending : HtmlEnd) (content : List Located)

/-- The blocks that are open after some lines, with all that was closed. -/
structure OpenBlocks where
  /-- Innermost first. -/
  containers : List OpenBlock := []
  /-- The closed blocks outside of all containers, newest first. -/
  closed : List Draft := []
  leaf : OpenLeaf := .none
  /-- Whether the last item that was opened has shown nothing yet. -/
  emptyItem : Bool := false
  /-- Whether the last line was blank, as far as looseness goes. -/
  blank : Bool := false
  /-- The definitions by the keys of their labels, newest first. -/
  definitions : List (Text × Definition) := []

namespace OpenBlocks

/-- The open containers, outermost first. -/
def spine (o : OpenBlocks) : List Container := (o.containers.map (·.holder.container)).reverse

/-- Puts a closed block into the innermost container. -/
def add (o : OpenBlocks) (d : Draft) : OpenBlocks :=
  match o.containers with
  | [] => { o with closed := d :: o.closed }
  | b :: bs => { o with containers := { b with children := d :: b.children } :: bs }

/-- Opens a container. -/
def push (o : OpenBlocks) (holder : Holder) (start : Nat) : OpenBlocks :=
  { o with containers := { holder, start } :: o.containers }

/-- Closes the innermost container. -/
def pop (o : OpenBlocks) (stop : Nat) : OpenBlocks :=
  match o.containers with
  | [] => o
  | b :: bs =>
    let o := { o with containers := bs }.add (b.holder.draft ⟨b.start, stop⟩ b.children.reverse)
    match b.holder with
    | .list _ _ true => { o with emptyItem := false }
    | _ => o

/-- Closes containers until so many are left. -/
def popTo (o : OpenBlocks) (n stop : Nat) : OpenBlocks :=
  (o.containers.length - n).repeat (·.pop stop) o

/-- What the innermost container is. -/
def top? (o : OpenBlocks) : Option Holder := o.containers.head?.map (·.holder)

/-- Makes a list loose. -/
def OpenBlock.loosen (b : OpenBlock) : OpenBlock :=
  match b.holder with
  | .list mark first _ => { b with holder := .list mark first false }
  | _ => b

/-- Closes the innermost item when it started with a blank line and another followed. -/
def finishEmptyItem (o : OpenBlocks) (stop : Nat) : OpenBlocks :=
  let o' :=
    match o.top? with
    | some (.item _) => if o.emptyItem && o.blank then o.pop stop else o
    | _ => o
  { o' with emptyItem := false }

/-- Closes the innermost container when it is a list. -/
def popList (o : OpenBlocks) (stop : Nat) : OpenBlocks :=
  match o.top? with
  | some (.list ..) => o.pop stop
  | _ => o

/-- Makes room for a block that is no item: an open list that is innermost ends, and after a blank line the
list around the innermost item is loose. -/
def finishList (o : OpenBlocks) (stop : Nat) : OpenBlocks :=
  let o := (o.finishEmptyItem stop).popList stop
  if o.blank then
    match o.containers with
    | item :: list :: bs => { o with containers := item :: OpenBlock.loosen list :: bs, blank := false }
    | _ => { o with blank := false }
  else o

/-- Opens a list that starts at an offset. -/
def openList (o : OpenBlocks) (start : Nat) (m : ListMarker) : OpenBlocks :=
  { o.push (.list m.mark m.number true) start with blank := false }

/-- Makes room for an item: goes on in the innermost list when that has the same mark, else opens one. -/
def continueList (o : OpenBlocks) (start : Nat) (m : ListMarker) : OpenBlocks :=
  let o := o.finishEmptyItem start
  match o.containers with
  | [] => o.openList start m
  | b :: bs =>
    match b.holder with
    | .list mark _ _ =>
      if mark = m.mark then
        if o.blank then { o with containers := OpenBlock.loosen b :: bs, blank := false } else o
      else (o.finishList start).openList start m
    | _ => (o.finishList start).openList start m

/-- Closes the leaf. -/
def closeLeaf (o : OpenBlocks) (stop : Nat) : OpenBlocks :=
  let put (start : Nat) (leaf : Leaf) : OpenBlocks := { o with leaf := .none }.add (.leaf ⟨start, stop⟩ leaf)
  match o.leaf with
  | .none => o
  | .paragraph start lines => put start (.paragraph (trimLastLine lines.reverse))
  | .fenced start _ _ info content => put start (.code (some info) content.reverse)
  | .indented start _ kept => put start (.code none kept.reverse)
  | .html start _ content => put start (.html content.reverse)

/-- Keeps a definition, unless its label has one already. -/
def define (o : OpenBlocks) (d : Definition) : OpenBlocks :=
  let key := Label.key d.label
  if o.definitions.any (·.1 == key) then o else { o with definitions := (key, d) :: o.definitions }

/-- The item that starts at a place after `indent` columns, as its marker, the columns that its content is
indented by, and the place after both. -/
def itemStart? (indent : Nat) (c : Cursor) : Option (ListMarker × Nat × Cursor) :=
  match ListMarker.open? c.rest with
  | none => none
  | some m =>
    if m.number.isNone && isThematicBreak c.rest then none
    else
      let after := ((c.advance m.width).skip 1).2
      let least := indent + m.width + 1
      if isBlankLine after.rest then some (m, least, after)
      else
        let (missing, text) := after.skip 4
        if missing = 0 then some (m, least, after) else some (m, least + (4 - missing), text)

/-- Opens the containers that start at a place of a line. The flag says that the line holds nothing after the
marker of an item. -/
def openContainers (o : OpenBlocks) (lineStart : Nat) (c : Cursor) : OpenBlocks × Cursor × Bool :=
  let (missing, mark) := c.skip 4
  if missing = 0 then (o, c, false)
  else
    match itemStart? (4 - missing) mark with
    | some (m, indent, c') =>
      let start := mark.offset - (4 - missing)
      let o := (o.continueList start m).push (.item indent) start
      if isBlankLine c'.rest then ({ o with emptyItem := true }, c', true)
      else if c'.rest.length < c.rest.length then openContainers o lineStart c'
      else (o, c', false)
    | none =>
      match Container.quoteMark? mark with
      | none => (o, c, false)
      | some c' =>
        let o := (o.finishList lineStart).push .quote mark.offset
        if c'.rest.length < c.rest.length then openContainers o lineStart c' else (o, c', false)
termination_by c.rest.length

/-- Takes a blank line that no leaf takes. -/
def blankLine (o : OpenBlocks) : OpenBlocks :=
  match o.containers with
  | [] => { o with blank := true }
  | b :: bs =>
    match b.holder with
    | .quote => o
    | .item _ =>
      if o.emptyItem then { o with containers := { b with holder := .item 0 } :: bs, blank := true }
      else { o with blank := true }
    | .list .. => { o with blank := true }

/-- Adds a line to an HTML block, which ends with it if the text that ends it stands there. -/
def addHtml (o : OpenBlocks) (start : Nat) (ending : HtmlEnd) (content : List Located) (owed offset : Nat)
    (t : Text) : OpenBlocks :=
  let o := { o with leaf := .html start ending ((literalEvents .html owed offset t).reverse ++ content) }
  match ending with
  | .closing text => if (Text.find? text t).isSome then o.closeLeaf (offset + Text.bytes t) else o
  | .blankLine => o

/-- Starts a leaf at a place of a line. The number says how many of the lines that follow are taken too. -/
def startLeaf (o : OpenBlocks) (l : Line) (ls : List Line) (c : Cursor) : OpenBlocks × Nat :=
  let o := o.finishList l.start
  let (missing, text) := c.skip 4
  let (physical, more) := Line.physical text.rest l.ending ls
  let place : Place := ⟨text.rest, l.ending, ls⟩
  if missing = 0 then
    let content := (literalEvents .text text.owed text.offset physical).reverse
    ({ o with leaf := .indented text.offset content content }, more)
  else
    let indent := 4 - missing
    match HtmlEnd.open? text.rest with
    | some ending => (o.addHtml text.offset ending [] (max indent c.owed) text.offset physical, more)
    | none =>
      if isThematicBreak text.rest then (o.add (.leaf ⟨text.offset, l.stop⟩ .thematicBreak), 0)
      else
        match atxLevel? text.rest with
        | some level =>
          let signs := text.rest.takeWhile (· = '#')
          let gap := (text.rest.drop signs.length).takeWhile isGap
          let start := text.offset + signs.length + gap.length
          let line : Line := ⟨start, headingText (text.rest.drop (signs.length + gap.length)), .endOfSource⟩
          (o.add (.leaf ⟨text.offset, l.stop⟩ (.heading level [line])), 0)
        | none =>
          match Fence.open? place with
          | some fence =>
            let info := infoString (physical.drop fence.length)
            ({ o with leaf := .fenced text.offset indent fence info [] }, more)
          | none =>
            match Definition.read? o.spine text.offset place with
            | some (d, passed) => (o.define d, passed)
            | none => ({ o with leaf := .paragraph text.offset [⟨text.offset, text.rest, l.ending⟩] }, 0)

/-- Takes a line that starts something new. -/
def startLine (o : OpenBlocks) (l : Line) (ls : List Line) : OpenBlocks × Nat :=
  let (n, c) := Container.enter (.ofLine l) o.spine
  let (o, c, isEmpty) := (o.popTo n l.start).openContainers l.start c
  if isEmpty then (o, 0)
  else if isBlankLine c.rest then (o.blankLine, 0)
  else o.startLeaf l ls c

/-- Takes a line after a leaf that it does not belong to. -/
def closeAndStart (o : OpenBlocks) (l : Line) (ls : List Line) : OpenBlocks × Nat :=
  (o.closeLeaf l.start).startLine l ls

/-- Whether a cursor has reached the end of the source. -/
def atSourceEnd (l : Line) (c : Cursor) : Bool := c.atEnd && l.ending = .endOfSource

/-- Takes a line while a paragraph is open. A line that starts nothing goes on in it, even when containers
around the paragraph do not go on. -/
def readParagraph (o : OpenBlocks) (start : Nat) (lines : List Line) (l : Line) (ls : List Line)
    (inside : Bool) (c : Cursor) : OpenBlocks × Nat :=
  let (missing, text) := c.skip 4
  let underline? := if missing ≠ 0 && inside then underlineLevel? text.rest else none
  match underline? with
  | some level =>
    let heading := Leaf.heading level (trimLastLine lines.reverse)
    ({ o with leaf := .none }.add (.leaf ⟨start, l.stop⟩ heading), 0)
  | none =>
    if (missing ≠ 0 && interruptsParagraph inside ⟨text.rest, l.ending, ls⟩) || text.skipIndent.atEnd then
      o.closeAndStart l ls
    else ({ o with leaf := .paragraph start (⟨c.offset, c.rest, l.ending⟩ :: lines) }, 0)

/-- Takes a line while a fenced block of code is open. -/
def readFenced (o : OpenBlocks) (start indent : Nat) (fence : Fence) (info : Text) (content : List Located)
    (l : Line) (ls : List Line) (c : Cursor) : OpenBlocks × Nat :=
  let text := (c.skip indent).2
  let (missing, mark) := text.skip (4 - indent)
  if missing ≠ 0 && (atSourceEnd l mark || fence.isClosedBy mark.rest) then (o.closeLeaf l.stop, 0)
  else
    let (physical, more) := Line.physical text.rest l.ending ls
    let content := (literalEvents .text text.owed text.offset physical).reverse ++ content
    ({ o with leaf := .fenced start indent fence info content }, more)

/-- Takes a line while an indented block of code is open. -/
def readIndented (o : OpenBlocks) (start : Nat) (content kept : List Located) (l : Line) (ls : List Line)
    (c : Cursor) : OpenBlocks × Nat :=
  let (missing, text) := c.skip 4
  if missing ≠ 0 && !text.atEnd then o.closeAndStart l ls
  else if atSourceEnd l text then (o.closeLeaf l.start, 0)
  else
    let (physical, more) := Line.physical text.rest l.ending ls
    let content := (literalEvents .text text.owed text.offset physical).reverse ++ content
    let blank := isBlankLine text.rest
    ({ o with leaf := .indented start content (if blank then kept else content), blank }, more)

/-- Takes a line while an HTML block is open. -/
def readHtml (o : OpenBlocks) (start : Nat) (ending : HtmlEnd) (content : List Located) (l : Line)
    (ls : List Line) (c : Cursor) : OpenBlocks × Nat :=
  if ending = .blankLine && isBlankLine c.rest then o.closeAndStart l ls
  else if atSourceEnd l c then (o.closeLeaf l.stop, 0)
  else
    let (physical, more) := Line.physical c.rest l.ending ls
    (o.addHtml start ending content c.owed c.offset physical, more)

/-- Takes a line. The number says how many of the lines that follow are taken with it. -/
def readLine (o : OpenBlocks) (l : Line) (ls : List Line) : OpenBlocks × Nat :=
  let (n, c) := Container.enter (.ofLine l) o.spine
  let inside := n = o.containers.length
  match o.leaf with
  | .none => o.startLine l ls
  | .paragraph start lines => o.readParagraph start lines l ls inside c
  | .fenced start indent fence info content =>
    if inside then o.readFenced start indent fence info content l ls c else o.closeAndStart l ls
  | .indented start content kept =>
    if inside then o.readIndented start content kept l ls c else o.closeAndStart l ls
  | .html start ending content =>
    if inside then o.readHtml start ending content l ls c else o.closeAndStart l ls

/-- Takes lines, of which the first ones are skipped. -/
def readLines : Nat → List Line → OpenBlocks → OpenBlocks
  | _, [], o => o
  | n + 1, _ :: ls, o => readLines n ls o
  | 0, l :: ls, o =>
    let (o, taken) := o.readLine l ls
    readLines taken ls o

/-- Closes all that is open at the end of a source. -/
def finish (o : OpenBlocks) (stop : Nat) : OpenBlocks := (o.closeLeaf stop).popTo 0 stop

/-- Reads the blocks of a source. -/
def ofText (source : Text) : OpenBlocks :=
  (readLines 0 (Line.ofText source) {}).finish source.bytes

/-- The closed blocks outside of all containers. -/
def drafts (o : OpenBlocks) : List Draft := o.closed.reverse

end OpenBlocks

end CommonMark.Markup
