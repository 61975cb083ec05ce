import CommonMark.Text.Basic

/-!
# Lines and indentation

A source is a list of lines, each with the byte offset it starts at. A cursor walks over the start of a line:
a tab goes to the next multiple of four columns, and when only some of its columns are used, the others are
owed to what follows.
-/

namespace CommonMark.Markup

/-- What ends a line. -/
inductive LineEnd where
  | lineFeed
  | carriageReturnLineFeed
  | carriageReturn
  /-- The end of the source. -/
  | endOfSource
  deriving DecidableEq, Repr

namespace LineEnd

/-- The characters of a line's end. -/
def text : LineEnd → Text
  | lineFeed => ['\n']
  | carriageReturnLineFeed => ['\r', '\n']
  | carriageReturn => ['\r']
  | endOfSource => []

end LineEnd

/-- A line of a source. -/
structure Line where
  /-- Byte offset of the first character. -/
  start : Nat
  body : Text
  ending : LineEnd
  deriving DecidableEq, Repr

namespace Line

/-- The line as it is written. -/
def text (l : Line) : Text := l.body ++ l.ending.text

/-- Byte offset at which the next line starts. -/
def stop (l : Line) : Nat := l.start + Text.bytes l.text

/-- Puts a character in front of the first line. -/
def consChar (start : Nat) (c : Char) : List Line → List Line
  | [] => [⟨start, [c], .endOfSource⟩]
  | l :: ls => ⟨start, c :: l.body, l.ending⟩ :: ls

/-- The lines of a text that starts at an offset. -/
def ofTextAt (start : Nat) : Text → List Line
  | [] => []
  | '\r' :: '\n' :: t => ⟨start, [], .carriageReturnLineFeed⟩ :: ofTextAt (start + 2) t
  | '\r' :: t => ⟨start, [], .carriageReturn⟩ :: ofTextAt (start + 1) t
  | '\n' :: t => ⟨start, [], .lineFeed⟩ :: ofTextAt (start + 1) t
  | c :: t => consChar start c (ofTextAt (start + c.utf8Size) t)

/-- The lines of a source. -/
def ofText (t : Text) : List Line := ofTextAt 0 t

/-- The text of a line that ends at a line feed only, from a part of its body on, and how many of the lines
that follow belong to it. -/
def physical (rest : Text) (ending : LineEnd) : List Line → Text × Nat
  | [] => (rest ++ ending.text, 0)
  | l :: ls =>
    if ending = .carriageReturn then
      let (more, n) := physical l.body l.ending ls
      (rest ++ ending.text ++ more, n + 1)
    else (rest ++ ending.text, 0)

end Line

/-- White space that does not end a line. -/
def isGap (c : Char) : Bool := c = ' ' || c = '\t' || c = '\x0b' || c = '\x0c'

/-- Whether the rest of a line shows nothing. -/
def isBlankLine (t : Text) : Bool := t.all isGap

/-- A space or a tab, which indent lines. -/
def isIndent (c : Char) : Bool := c = ' ' || c = '\t'

/-- A place at the start of a line. -/
structure Cursor where
  /-- Byte offset of what is left. -/
  offset : Nat
  column : Nat
  /-- Columns of the last tab that were not used. -/
  owed : Nat
  rest : Text
  deriving DecidableEq, Repr

namespace Cursor

/-- The start of a line. -/
def ofLine (l : Line) : Cursor := ⟨l.start, 0, 0, l.body⟩

/-- Moves over columns of white space; the first value says how many were missing. -/
def skipFrom (offset column : Nat) : Nat → Text → Nat × Cursor
  | 0, t => (0, ⟨offset, column, 0, t⟩)
  | n + 1, ' ' :: t => skipFrom (offset + 1) (column + 1) n t
  | n + 1, '\t' :: t =>
    let width := 4 - column % 4
    if width ≤ n then skipFrom (offset + 1) (column + width) (n + 1 - width) t
    else (0, ⟨offset + 1, column + width, width - (n + 1), t⟩)
  | n + 1, t => (n + 1, ⟨offset, column, 0, t⟩)

/-- Moves over columns of white space, first those that are owed; the first value says how many were
missing. -/
def skip (c : Cursor) (n : Nat) : Nat × Cursor :=
  if n ≤ c.owed then (0, { c with owed := c.owed - n })
  else skipFrom c.offset c.column (n - c.owed) c.rest

/-- Moves over all spaces and tabs. -/
def skipIndent (c : Cursor) : Cursor :=
  let gap := c.rest.takeWhile isIndent
  ⟨c.offset + gap.length, c.column + gap.length, 0, c.rest.dropWhile isIndent⟩

/-- Moves over ASCII characters. -/
def advance (c : Cursor) (n : Nat) : Cursor :=
  ⟨c.offset + n, c.column + n, c.owed, c.rest.drop n⟩

/-- Whether nothing is left of the line. -/
def atEnd (c : Cursor) : Bool := c.rest.isEmpty

end Cursor

/-- A construct that goes on over lines and holds blocks. -/
inductive Container where
  /-- Goes on with a `>`. -/
  | quote
  /-- Goes on with as many columns of white space, or with an empty line. -/
  | item (indent : Nat)
  /-- Goes on by itself: its items say where it ends. -/
  | list
  deriving DecidableEq, Repr

namespace Container

/-- The marker of a block quote, with a space after it. -/
def quoteMark? (c : Cursor) : Option Cursor :=
  match c.rest with
  | '>' :: _ => some ((c.advance 1).skip 1).2
  | _ => none

/-- Goes on in a container. -/
def enter? (c : Cursor) : Container → Option Cursor
  | quote => quoteMark? (c.skip 3).2
  | item indent =>
    let (missing, c') := c.skip indent
    if missing = 0 || c'.atEnd then some c' else none
  | list => some c

/-- Goes on in containers, the outermost first, up to the first that does not go on, and counts those that
do. -/
def enter (c : Cursor) : List Container → Nat × Cursor
  | [] => (0, c)
  | k :: ks =>
    match enter? c k with
    | some c' =>
      let (n, c'') := enter c' ks
      (n + 1, c'')
    | none => (0, c)

end Container

end CommonMark.Markup
