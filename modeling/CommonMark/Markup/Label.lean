import CommonMark.Markup.RawTag
import CommonMark.Text.CaseFolding

/-!
# Labels of references

A label stands between brackets. White space in it counts as one space, at most one line end may stand in each
run of it, and brackets need a backslash. A label may not be blank, and may not grow too long; plain ASCII
characters are not counted. The machine reads one character at a time, so that a label can be read over lines
whose starts are skipped.
-/

namespace CommonMark.Markup.Label

/-- What has been read of a label. -/
structure State where
  /-- The text so far, backwards; runs of white space are single spaces. -/
  read : Text := []
  /-- Whether a backslash stands before. -/
  escaped : Bool := false
  /-- Line ends in the run of white space before, if there is one. -/
  breaks : Option Nat := none
  /-- Whether a carriage return stands before, with which a line feed is one line end. -/
  afterReturn : Bool := false
  /-- Whether a character other than white space was read, not counting escapes. -/
  shows : Bool := false
  /-- How long the label counts. -/
  weight : Nat := 0

/-- What one character does to a label. -/
inductive Outcome where
  | goesOn (s : State)
  | refused
  /-- The bracket that ends the label was read. -/
  | ends (label : Text)

/-- The length from which on a label is refused. -/
def weightLimit : Nat := 1000

namespace State

/-- The label without the space at its two ends. -/
def finish (s : State) : Outcome :=
  let trimmed := (s.read.dropWhile (· = ' ')).reverse.dropWhile (· = ' ')
  if s.shows then .ends trimmed else .refused

/-- Reads a character after a backslash. -/
def readEscaped (s : State) (c : Char) : State :=
  { s with
    read := c :: s.read, escaped := false, breaks := none, afterReturn := false
    shows := s.shows || decide (1 < c.utf8Size), weight := s.weight + (c.utf8Size - 1) }

/-- Reads white space. -/
def readGap (s : State) (c : Char) : Outcome :=
  let isBreak := (c = '\n' && !s.afterReturn) || c = '\r'
  let before := s.breaks.getD 0
  if isBreak && decide (1 ≤ before) then .refused
  else .goesOn
    { s with
      read := if s.breaks.isSome then s.read else ' ' :: s.read
      breaks := some (if isBreak then before + 1 else before)
      afterReturn := c = '\r', weight := s.weight + 1 }

/-- Reads one character. -/
def step (s : State) (c : Char) : Outcome :=
  if s.escaped then .goesOn (s.readEscaped c)
  else if weightLimit ≤ s.weight then .refused
  else if c = '[' then .refused
  else if c = ']' then s.finish
  else if c = '\\' then
    .goesOn { s with read := c :: s.read, escaped := true, breaks := none, afterReturn := false, weight := s.weight + 2 }
  else if RawTag.isBreakOrGap c then s.readGap c
  else
    .goesOn
      { s with
        read := c :: s.read, breaks := none, afterReturn := false, shows := true
        weight := s.weight + if c.utf8Size = 1 then 0 else c.utf8Size }

/-- What becomes of a label when a text is read. -/
inductive Progress where
  | goesOn (s : State)
  | refused
  /-- The label ended; the text after its bracket is left. -/
  | ends (label rest : Text)

/-- Reads a text up to the end of the label. -/
def feed (s : State) : Text → Progress
  | [] => .goesOn s
  | c :: t =>
    match s.step c with
    | .goesOn s' => feed s' t
    | .refused => .refused
    | .ends label => .ends label t

end State

/-- The label at the start of a text, which starts with its bracket, and the text that follows it. -/
def read? : Text → Option (Text × Text)
  | '[' :: t =>
    match State.feed {} t with
    | .ends label rest => some (label, rest)
    | _ => none
  | _ => none

/-- The form by which labels are compared. -/
def key (label : Text) : Text := label.foldCase

end CommonMark.Markup.Label
