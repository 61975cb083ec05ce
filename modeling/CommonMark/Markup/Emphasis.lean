import CommonMark.Markup.Draft
import CommonMark.Text.Blank

/-!
# Emphasis and quotation marks

Runs of `*` and `_` open and close emphasis by what stands beside them. A run that can close looks for the
innermost run of the same mark that can open for it; what stands between becomes emphasis, strong for each two
marks and plain for one more, and runs that were opened in between are text. Quotation marks become typographic
ones by the same rule of neighbours, each kind on its own.
-/

namespace CommonMark.Markup

/-- Whether a mark between two characters can open. -/
def canOpen (mark : Char) (before after : Option Char) : Bool :=
  match after with
  | none => false
  | some next =>
    !isBlank next &&
      ((mark = '*' && !isPunctuation next) ||
        before.all fun c => isBlank c || (isPunctuation c && !(mark = '\'' && (c = ']' || c = ')'))))

/-- Whether a mark between two characters can close. -/
def canClose (mark : Char) (before after : Option Char) : Bool :=
  match before with
  | none => false
  | some c =>
    !isBlank c &&
      ((mark = '*' && !isPunctuation c) || after.all fun next => isBlank next || isPunctuation next)

/-- A run of emphasis marks, as long as it can be. -/
structure Run where
  mark : Char
  length : Nat
  canOpen : Bool
  canClose : Bool
  /-- Byte offset of the first mark. -/
  start : Nat
  deriving DecidableEq, Repr

namespace Run

/-- Whether the run can open and close. -/
def both (r : Run) : Bool := r.canOpen && r.canClose

/-- The marks of a run, from the first of some that are left, as text. -/
def textOf (r : Run) (start n : Nat) : Located := (.text (List.replicate n r.mark), ⟨start, start + n⟩)

/-- Whether two runs may enclose emphasis: they have the same mark, and when one of them can open and close,
their lengths do not add up to a multiple of three, unless the closing length is one itself. -/
def pairs (opening closing : Run) : Bool :=
  opening.mark = closing.mark &&
    ((!opening.both && !closing.both) || (opening.length + closing.length) % 3 ≠ 0 ||
      closing.length % 3 = 0)

end Run

/-- A part of running text, before emphasis and quotation marks are paired. -/
inductive Piece where
  /-- Events that do not change any more. -/
  | settled (events : List Located)
  | run (r : Run)
  | quote (mark : Char) (canOpen canClose : Bool) (span : Span)
  | hardBreak (byBackslash : Bool) (span : Span)

namespace Piece

/-- A text. -/
def text (t : Text) (span : Span) : Piece := settled [(.text t, span)]

/-- Whether the piece is paired with others. -/
def isPaired : Piece → Bool
  | run _ | quote .. => true
  | _ => false

/-- A hard break at the end of pieces that nothing follows: it breaks no line, and shows as written. -/
def weaken : Piece → Piece
  | hardBreak true span => text ['\\'] span
  | hardBreak false span => settled [(.softBreak, span)]
  | p => p

/-- Pieces with the last one weakened. -/
def weakenLast : List Piece → List Piece
  | [] => []
  | [p] => [p.weaken]
  | p :: ps => p :: weakenLast ps

/-- Whether the next single quotation mark that opens or closes anything is one that closes. -/
def closesSingle : List Piece → Bool
  | [] => false
  | quote mark canOpen canClose _ :: ps =>
    if mark = '\'' && (canOpen || canClose) then canClose else closesSingle ps
  | _ :: ps => closesSingle ps

/-- Pieces with typographic quotation marks, by whether a single and a double one are open. A single mark
opens only if another closes it. -/
def settleQuotes : (single double : Bool) → List Piece → List Piece
  | _, _, [] => []
  | single, double, quote mark opens closes span :: ps =>
    if mark = '\'' then
      if single && closes then text ['’'] span :: settleQuotes false double ps
      else if opens then
        let isClosed := closesSingle ps
        text [if isClosed then '‘' else '’'] span :: settleQuotes true double ps
      else text ['’'] span :: settleQuotes single double ps
    else if double && closes then text ['”'] span :: settleQuotes single false ps
    else text ['“'] span :: settleQuotes single (double || opens) ps
  | single, double, p :: ps => p :: settleQuotes single double ps

end Piece

/-- A run that may open emphasis, with what follows it. -/
structure Opener where
  run : Run
  /-- Byte offset of the first mark that is left. -/
  start : Nat
  /-- How many marks are left beside one. -/
  more : Nat
  /-- The events after it, newest first. -/
  after : List Located := []

/-- Runs that are open, innermost first, with the events before them, newest first. -/
structure Pairing where
  openers : List Opener := []
  before : List Located := []

namespace Opener

/-- The marks that are left, as text. -/
def marks (o : Opener) : Located := o.run.textOf o.start (o.more + 1)

/-- The innermost opener that pairs with a run, the events between, newest first, and the openers around it.
-/
def find? (closing : Run) : List Opener → Option (List Located × Opener × List Opener)
  | [] => none
  | o :: os =>
    if o.run.pairs closing then some (o.after, o, os)
    else (find? closing os).map fun (inner, found, around) => (o.after ++ o.marks :: inner, found, around)

end Opener

/-- Events, newest first, inside a construct. -/
def enclose (tag : Tag) (span : Span) (inner : List Located) : List Located :=
  (.stop tag, span) :: inner ++ [(.start tag, span)]

/-- Events, newest first, inside emphasis of so many marks that ends and starts at these offsets: strong for
each two, and outside of those plain for one. -/
def emphasise : (marks opening closing : Nat) → List Located → List Located
  | 0, _, _, inner => inner
  | 1, opening, closing, inner => enclose .emphasis ⟨opening - 1, closing + 1⟩ inner
  | n + 2, opening, closing, inner =>
    emphasise n (opening - 2) (closing + 2) (enclose .strong ⟨opening - 2, closing + 2⟩ inner)

namespace Pairing

/-- Adds events, newest first. -/
def add (p : Pairing) (events : List Located) : Pairing :=
  match p.openers with
  | [] => { p with before := events ++ p.before }
  | o :: os => { p with openers := { o with after := events ++ o.after } :: os }

/-- Closes emphasis with the marks of a run that are left; the number says how many stay. -/
def close (r : Run) : (left : Nat) → Pairing → Pairing × Nat
  | 0, p => (p, 0)
  | n + 1, p =>
    match Opener.find? r p.openers with
    | none => (p, n + 1)
    | some (inner, o, around) =>
      let used := min (n + 1) (o.more + 1)
      let inside := emphasise used (o.start + o.more + 1) (r.start + r.length - (n + 1)) inner
      let p' : Pairing :=
        if used = o.more + 1 then { p with openers := around }.add inside
        else { p with openers := { o with more := o.more - used, after := inside } :: around }
      close r (n + 1 - used) p'
termination_by left => left

/-- Takes a piece. -/
def take (p : Pairing) : Piece → Pairing
  | .settled events => p.add events.reverse
  | .hardBreak _ span => p.add [(.hardBreak, span)]
  | .quote mark _ _ span => p.add [(.text [mark], span)]
  | .run r =>
    let (p, left) := if r.canClose then p.close r r.length else (p, r.length)
    let start := r.start + (r.length - left)
    if left = 0 then p
    else if r.canOpen then { p with openers := ⟨r, start, left - 1, []⟩ :: p.openers }
    else p.add [r.textOf start left]

/-- All events, newest first; runs that are still open are text. -/
def finish (p : Pairing) : List Located :=
  p.openers.foldr (fun o events => o.after ++ o.marks :: events) p.before

end Pairing

/-- The events of pieces. In a label, where a break may come last, it is weakened if anything in the label is
paired. -/
def settle (isLabel : Bool) (ps : List Piece) : List Located :=
  let ps := if isLabel && ps.any Piece.isPaired then Piece.weakenLast ps else ps
  ((Piece.settleQuotes false false ps).foldl Pairing.take {}).finish.reverse

end CommonMark.Markup
