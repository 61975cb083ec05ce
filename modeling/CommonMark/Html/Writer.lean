import CommonMark.Text.Basic

/-!
# Writing HTML

Output is a list of steps. A writer carries them out on a sink and remembers one thing about what it wrote:
whether the sink stands at the start of a line. A step that needs a fresh line looks only at that flag.
`transcript` says what steps write when nothing fails.
-/

namespace CommonMark.Html

/-- A place that text goes to. A write gives the sink as it is afterwards and whether all was taken. -/
class Sink (σ : Type) where
  put : σ → Text → σ × Bool

/-- One step of output. -/
inductive Step where
  /-- Writes a text; an empty one writes nothing. -/
  | text (t : Text)
  /-- Ends the line (`HtmlWriter::newline`). -/
  | newline
  /-- Ends the line, unless the sink stands at the start of one (`HtmlWriter::ensure_fresh_line`). -/
  | freshLine
  deriving DecidableEq, Repr

namespace Step

/-- What a step writes, by whether the sink stands at the start of a line. -/
def output (atLineStart : Bool) : Step → Text
  | text t => t
  | newline => ['\n']
  | freshLine => if atLineStart then [] else ['\n']

end Step

/-- Whether a sink stands at the start of a line after a text. -/
def endsLine (before : Bool) (t : Text) : Bool :=
  match t.getLast? with
  | none => before
  | some c => c = '\n'

/-- What steps write to a sink that takes everything. -/
def transcript (atLineStart : Bool) : List Step → Text
  | [] => []
  | s :: ss =>
    let t := s.output atLineStart
    t ++ transcript (endsLine atLineStart t) ss

/-- A sink with the flag that says whether it stands at the start of a line (`HtmlWriter`). -/
structure Writer (σ : Type) where
  sink : σ
  atLineStart : Bool := true

namespace Writer

variable {σ : Type} [Sink σ]

/-- Writes a text. Nothing is done for an empty one, and a write that fails leaves the flag alone
(`HtmlWriter::write_str`). -/
def write (w : Writer σ) (t : Text) : Writer σ × Bool :=
  if t.isEmpty then (w, true)
  else match Sink.put w.sink t with
    | (sink, true) => (⟨sink, endsLine w.atLineStart t⟩, true)
    | (sink, false) => (⟨sink, w.atLineStart⟩, false)

/-- Carries out one step. -/
def step (w : Writer σ) (s : Step) : Writer σ × Bool := w.write (s.output w.atLineStart)

/-- Carries out steps up to the first that fails. -/
def run (w : Writer σ) : List Step → Writer σ × Bool
  | [] => (w, true)
  | s :: ss =>
    match w.step s with
    | (w', true) => run w' ss
    | (w', false) => (w', false)

/-- Writes the parts of one formatted text. -/
def writeAll (w : Writer σ) (parts : List Text) : Writer σ × Bool := w.run (parts.map .text)

end Writer

/-- A sink in memory that holds a limited number of bytes. A write is taken character by character up to
the first that does not fit. -/
structure Buffer where
  /-- What was written, the newest character first. -/
  newestFirst : List Char := []
  /-- How many more bytes fit; any number when there is no limit. -/
  room : Option Nat := none

namespace Buffer

/-- A buffer that already holds a text; a text beyond the limit leaves no room. -/
def ofText (t : Text) (limit : Option Nat) : Buffer :=
  ⟨t.reverse, limit.map (· - Text.bytes t)⟩

/-- All that the buffer holds. -/
def text (b : Buffer) : Text := b.newestFirst.reverse

/-- Takes one character, if it fits. -/
def push? (b : Buffer) (c : Char) : Option Buffer :=
  match b.room with
  | none => some { b with newestFirst := c :: b.newestFirst }
  | some n => if c.utf8Size ≤ n then some ⟨c :: b.newestFirst, some (n - c.utf8Size)⟩ else none

/-- Takes the characters that fit, and says whether all did. -/
def put (b : Buffer) : Text → Buffer × Bool
  | [] => (b, true)
  | c :: t =>
    match b.push? c with
    | some b' => put b' t
    | none => (b, false)

instance : Sink Buffer := ⟨put⟩

end Buffer

end CommonMark.Html
