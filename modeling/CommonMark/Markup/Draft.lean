import CommonMark.Markup.Definition

/-!
# Drafts

The block structure of a source: containers with their contents, and leaves whose running text has not been
read yet. Running text is kept as lines without the marks of the containers around it; the text of code and
HTML blocks is kept as the events that report it.
-/

namespace CommonMark.Markup

/-- An event with the part of the source that it comes from. -/
abbrev Located := Event × Span

/-- A block that holds no blocks. -/
inductive Leaf where
  | paragraph (lines : List Line)
  | heading (level : HeadingLevel) (lines : List Line)
  /-- Indented code has no info string. -/
  | code (info : Option Text) (content : List Located)
  | html (content : List Located)
  | thematicBreak

/-- A block before its running text is read. -/
inductive Draft where
  | leaf (span : Span) (leaf : Leaf)
  | quote (span : Span) (children : List Draft)
  /-- A list with a first number is ordered. -/
  | list (span : Span) (first : Option Nat) (tight : Bool) (items : List Draft)
  | item (span : Span) (children : List Draft)

/-- The events of a piece of literal text at an offset: the columns owed to it as spaces, then the text, with
a carriage return before the last character left out. -/
def literalEvents (event : Text → Event) (owed offset : Nat) (t : Text) : List Located :=
  let pad : List Located :=
    if owed = 0 then [] else [(.text (List.replicate owed ' '), ⟨offset, offset⟩)]
  let text : List Located :=
    match t.reverse with
    | last :: '\r' :: body =>
      let stop := offset + Text.bytes body.reverse
      [(event body.reverse, ⟨offset, stop⟩), (event [last], ⟨stop + 1, stop + 1 + last.utf8Size⟩)]
    | _ => [(event t, ⟨offset, offset + Text.bytes t⟩)]
  pad ++ text

/-- A text without the characters of a kind at its end. -/
def dropEndWhile (p : Char → Bool) (t : Text) : Text := (t.reverse.dropWhile p).reverse

/-- The text of a heading that number signs mark, without the closing sequence of number signs that a space
parts from it. -/
def headingText (t : Text) : Text :=
  let text := dropEndWhile (· = ' ') t
  let opened := dropEndWhile (· = '#') text
  let closed := dropEndWhile (· = ' ') opened
  if opened = [] then [] else if closed.length < opened.length then closed else text

/-- The info string of a code block, from what follows its opening fence. -/
def infoString (t : Text) : Text :=
  unescape (dropEndWhile RawTag.isBreakOrGap (t.dropWhile isGap))

/-- The lines of a paragraph without the white space at its end. -/
def trimLastLine : List Line → List Line
  | [] => []
  | [l] => [{ l with body := dropEndWhile isGap l.body, ending := .endOfSource }]
  | l :: ls => l :: trimLastLine ls

end CommonMark.Markup
