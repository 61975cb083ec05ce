import CommonMark.Text.Basic
import CommonMark.Document

/-!
# Events

A parser reports a document as events, each with the bytes of the source it comes from. A construct starts
and ends with the same tag; of an end's tag only the kind matters.
-/

namespace CommonMark

/-- Bytes from `start` to before `stop`. -/
structure Span where
  start : Nat
  stop : Nat
  deriving DecidableEq, Repr, Inhabited

namespace Span

/-- The bytes of a span, when it lies in the text and cuts no character. -/
def read? (s : Span) (t : Text) : Option Text :=
  if s.start ≤ s.stop then t.slice? s.start (s.stop - s.start) else none

end Span

/-- The six levels of headings. -/
inductive HeadingLevel where
  | h1 | h2 | h3 | h4 | h5 | h6
  deriving DecidableEq, Repr

namespace HeadingLevel

/-- The level as a number. -/
def toNat : HeadingLevel → Nat
  | h1 => 1 | h2 => 2 | h3 => 3 | h4 => 4 | h5 => 5 | h6 => 6

/-- The level with a number. -/
def ofNat? : Nat → Option HeadingLevel
  | 1 => some h1 | 2 => some h2 | 3 => some h3 | 4 => some h4 | 5 => some h5 | 6 => some h6
  | _ => none

end HeadingLevel

/-- A construct that holds others. -/
inductive Tag where
  | paragraph
  | heading (level : HeadingLevel)
  | blockQuote
  /-- Indented code has no info string. -/
  | codeBlock (info : Option Text)
  | htmlBlock
  /-- A list with a start is ordered. -/
  | list (start : Option Nat)
  | item
  | footnoteDefinition (label : Text)
  | table
  | tableHead
  | tableRow
  | tableCell
  | definitionList
  | definitionListTitle
  | definitionListDefinition
  | metadataBlock
  | emphasis
  | strong
  | strikethrough
  | superscript
  | subscript
  | link (url title : Text)
  | image (url title : Text)
  deriving DecidableEq, Repr

/-- What a parser reports. -/
inductive Event where
  | start (tag : Tag)
  | stop (tag : Tag)
  | text (t : Text)
  | code (t : Text)
  | html (t : Text)
  | inlineHtml (t : Text)
  | inlineMath (t : Text)
  | displayMath (t : Text)
  | softBreak
  | hardBreak
  | rule
  | footnoteReference (label : Text)
  | taskListMarker (done : Bool)
  deriving DecidableEq, Repr

end CommonMark
