import CommonMark.Markup.Emphasis
import CommonMark.Markup.Prose

/-!
# Reading running text

Running text is read from left to right. Code spans, HTML and addresses in angle brackets are taken as soon as
they start; a closing bracket looks back for the innermost opening one, and makes a link or an image of what
stands between when a target follows or the label has a definition. A link holds no link, so the opening
brackets around one become text. What is left is paired as emphasis.
-/

namespace CommonMark.Markup

/-- What running text is read with. -/
structure Setting where
  source : Text
  /-- Whether quotation marks, dashes and ellipses become typographic. -/
  smart : Bool
  /-- The target that is defined for a label. -/
  target? : Text → Option Target

/-- An opening bracket. -/
structure Bracket where
  isImage : Bool
  /-- Whether a link may still start here. -/
  active : Bool := true
  mark : Located
  /-- The text from the bracket on. -/
  written : Text
  /-- What was read since, newest first. -/
  pieces : List Piece := []

namespace Bracket

/-- The bracket and what was read since as they are, newest first. -/
def dissolve (b : Bracket) : List Piece := b.pieces ++ [.settled [b.mark]]

end Bracket

/-- What has been read of a running text. -/
structure Reading where
  /-- The brackets that are open, innermost first. -/
  brackets : List Bracket := []
  /-- What was read before them, newest first. -/
  pieces : List Piece := []
  /-- The characters whose bracket ended the label of a reference without definition. -/
  spent : List Nat := []

namespace Reading

/-- Adds pieces, newest first. -/
def add (s : Reading) (ps : List Piece) : Reading :=
  match s.brackets with
  | [] => { s with pieces := ps ++ s.pieces }
  | b :: bs => { s with brackets := { b with pieces := ps ++ b.pieces } :: bs }

/-- Adds a text. -/
def addText (s : Reading) (t : Text) (span : Span) : Reading := s.add [.text t span]

/-- Adds an event. -/
def addEvent (s : Reading) (e : Event) (span : Span) : Reading := s.add [.settled [(e, span)]]

/-- All that was read, in order. -/
def finish (s : Reading) : List Piece :=
  (s.brackets.foldr (fun b ps => b.dissolve ++ ps) s.pieces).reverse

end Reading

/-- Whether a character may start something else than text. -/
def isSpecial (smart : Bool) (c : Char) : Bool :=
  "\n\r\\&<\x60*_[]!".toList.contains c || (smart && "'\".-".toList.contains c)

/-- Whether the line ends here or after white space. -/
def endsLineSoon (t : Text) : Bool :=
  match t.dropWhile isGap with
  | '\n' :: _ | '\r' :: _ => true
  | _ => false

/-- The text up to the next character that may start something else. -/
def plainText (smart : Bool) : Text → Text
  | [] => []
  | c :: t =>
    if isSpecial smart c || (isGap c && endsLineSoon (c :: t)) then [] else c :: plainText smart t

/-- How many characters there are up to the end of the first run of exactly `n` backticks, after `run` of
them. -/
def closingTicks? (n : Nat) : (run : Nat) → Text → Option Nat
  | run, [] => if run = n then some 0 else none
  | run, c :: t =>
    if c = '\x60' then (closingTicks? n (run + 1) t).map (· + 1)
    else if run = n then some 0
    else (closingTicks? n 0 t).map (· + 1)

/-- The text of a code span: line ends are spaces, and one space is left out at each end if there are two and
more than spaces. -/
def codeText (t : Text) : Text :=
  let t := t.map fun c => if c = '\n' || c = '\r' then ' ' else c
  if t.all (· = ' ') then t
  else if t.head? = some ' ' && t.getLast? = some ' ' then t.tail.dropLast
  else t

/-- The characters of a line end and the indentation that follows. -/
def lineEndLength (t : Text) : Nat :=
  let eol :=
    match t with
    | '\r' :: '\n' :: _ => 2
    | '\r' :: _ | '\n' :: _ => 1
    | _ => 0
  eol + ((t.drop eol).takeWhile isIndent).length

/-- Dashes for a run of hyphens: one for two, a long one for three, and for more as many long ones as leave
no hyphen over, or short ones. -/
def dashes (n : Nat) : Text :=
  if n % 3 = 0 then List.replicate (n / 3) '—'
  else if n % 2 = 0 then List.replicate (n / 2) '–'
  else if n % 3 = 1 then List.replicate (n / 3 - 1) '—' ++ ['–', '–']
  else List.replicate (n / 3) '—' ++ ['–']

/-- The length of a comment, an instruction, a declaration or a section of character data whose `<` stands
before the text, that one counted. -/
def specialHtmlLength? : Text → Option Nat
  | '?' :: t => (Text.indexOf? "?>".toList t).map (· + 4)
  | '!' :: '-' :: '-' :: t =>
    if t.head? = some '>' then some 5
    else if "->".toList.isPrefixOf t then some 6
    else (Text.indexOf? "-->".toList t).map (· + 7)
  | '!' :: '[' :: t =>
    if "CDATA[".toList.isPrefixOf t then
      let data := (t.drop 6).takeWhile (· ≠ ']')
      let rest := t.drop (6 + data.length)
      let closing := rest.takeWhile (· = ']')
      if closing ≠ [] && (rest.drop closing.length).head? = some '>' then
        some (9 + data.length + closing.length + 1)
      else none
    else none
  | '!' :: c :: t =>
    if CharacterReference.isLetter c then
      let text := t.takeWhile (· ≠ '>')
      if text.length < t.length then some (4 + text.length) else none
    else none
  | _ => none

namespace Reading

/-- Forbids links at the brackets that are open. -/
def deactivateLinks (s : Reading) : Reading :=
  { s with brackets := s.brackets.map fun b => if b.isImage then b else { b with active := false } }

/-- Makes a link or an image of what stands after a bracket, which is no longer open. -/
def addTarget (s : Reading) (b : Bracket) (target : Target) (stop : Nat) : Reading :=
  let title := target.title.getD []
  let tag := if b.isImage then Tag.image target.url title else .link target.url title
  let span : Span := ⟨b.mark.2.start, stop⟩
  let events := (.start tag, span) :: settle true b.pieces.reverse ++ [(.stop tag, span)]
  let s := s.add [.settled events]
  if b.isImage then s else s.deactivateLinks

/-- What follows a closing bracket. -/
inductive Reference where
  /-- A target of its own, and how many characters it takes. -/
  | inline (target : Target) (length : Nat)
  /-- A label, and how many characters it takes. -/
  | full (label : Text) (length : Nat)
  /-- Empty brackets, and how many characters they take. -/
  | collapsed (length : Nat)
  | none

/-- Reads what follows a closing bracket. A backslash right after it does not count. -/
def reference (t : Text) : Reference :=
  match InlineLink.read? t with
  | some (target, rest) => .inline target (t.length - rest.length)
  | none =>
    let t' := if "\\[".toList.isPrefixOf t then t.tail else t
    let skipped := t.length - t'.length
    match t' with
    | '[' :: ']' :: _ => .collapsed (skipped + 2)
    | _ =>
      match Label.read? t' with
      | some (label, rest) => .full label (skipped + (t'.length - rest.length))
      | none => .none

/-- Reads a closing bracket, the character `i`, before a text. The number says how many characters are
taken. -/
def closeBracket (setting : Setting) (p : Prose) (i : Nat) (t : Text) (s : Reading) : Reading × Nat :=
  match s.brackets with
  | [] => (s.addText [']'] (p.span i 1), 1)
  | b :: bs =>
    let around := { s with brackets := bs }
    let asText := (around.add b.dissolve).addText [']'] (p.span i 1)
    /- The label between the brackets themselves, if it may be tried. -/
    let own? : Option Target :=
      match Label.read? b.written with
      | some (label, rest) =>
        if rest.length = t.length && !s.spent.contains i then setting.target? label else none
      | none => none
    let link (target : Target) (length : Nat) : Reading × Nat :=
      (around.addTarget b target (p.offset (i + length) + 1), length + 1)
    if !b.active then (asText, 1)
    else
      match reference t with
      | .inline target length => link target length
      | .full label length =>
        match setting.target? label with
        | some target => link target length
        | none => ({ asText with spent := (i + length) :: s.spent }, 1)
      | .collapsed length => own?.elim (asText, 1) (link · length)
      | .none => own?.elim (asText, 1) (link · 0)

/-- Reads a run of backticks, of which the first may be escaped. -/
def readTicks (p : Prose) (i : Nat) (isEscaped : Bool) (t : Text) (s : Reading) : Reading × Nat :=
  let count := runLength '\x60' t
  let n := if isEscaped then count - 1 else count
  let rest := t.drop count
  match if n = 0 then none else closingTicks? n 0 rest with
  | none => (s.addText (List.replicate count '\x60') (p.span i count), count)
  | some m =>
    let s := if isEscaped then s.addText ['\x60'] (p.span i 1) else s
    (s.addEvent (.code (codeText (rest.take (m - n)))) (p.span (i + count - n) (m + n)), count + m)

/-- How many characters stand before a byte offset, and the indentation of the line that would start
there. -/
def charactersBefore (p : Prose) (i stop : Nat) (t : Text) : Nat :=
  let n := (((p.offsets.toList.drop i).takeWhile (· < stop)).length)
  if (t.take n).getLast?.any (fun c => c = '\n' || c = '\r') then
    n + ((t.drop n).takeWhile isIndent).length
  else n

/-- Reads from a `<` on: an address, a tag, or other HTML, which is read as the source is written. -/
def readAngle (setting : Setting) (p : Prose) (i : Nat) (t : Text) (s : Reading) : Reading × Nat :=
  let asText := (s.addText ['<'] (p.span i 1), 1)
  match Autolink.read? t with
  | some url =>
    let n := url.length + 2
    let tag := Tag.link url []
    let events : List Located :=
      [(.start tag, p.span i n), (.text url, p.span (i + 1) url.length), (.stop tag, p.span i n)]
    (s.add [.settled events], n)
  | none =>
    match RawTag.length? ('<' :: t) with
    | some n => (s.addEvent (.inlineHtml ('<' :: t.take (n - 1))) (p.span i n), n)
    | none =>
      match t with
      | '!' :: _ | '?' :: _ =>
        let start := p.offset i
        match Span.read? ⟨start, p.blockStop⟩ setting.source with
        | none => asText
        | some written =>
          match specialHtmlLength? (written.drop 1) with
          | none => asText
          | some n =>
            let html := written.take n
            let stop := start + Text.bytes html
            (s.addEvent (.inlineHtml html) ⟨start, stop⟩, charactersBefore p i stop ('<' :: t))
      | _ => asText

/-- Reads a run of emphasis marks. -/
def readRun (p : Prose) (i : Nat) (before : Option Char) (mark : Char) (t : Text) (s : Reading) :
    Reading × Nat :=
  let n := runLength mark (mark :: t)
  let after := (t.drop (n - 1)).head?
  (s.add [.run ⟨mark, n, canOpen mark before after, canClose mark before after, p.offset i⟩], n)

/-- Reads from a backslash on. -/
def readBackslash (p : Prose) (i : Nat) (t : Text) (s : Reading) : Reading × Nat :=
  match t with
  | [] => (s.addText ['\\'] (p.span i 1), 1)
  | c :: r =>
    if c = '\n' || c = '\r' then
      let n := 1 + lineEndLength t
      (s.add [.hardBreak true (p.span i n)], n)
    else if c = '\x60' then
      let (s, n) := s.readTicks p (i + 1) true (c :: r)
      (s, n + 1)
    else if isAsciiPunctuation c then (s.addText [c] (p.span (i + 1) 1), 2)
    else (s.addText ['\\'] (p.span i 1), 1)

/-- Reads white space with a line end: two or more characters before the line end make a hard break. -/
def readLineEnd (p : Prose) (i : Nat) (t : Text) (s : Reading) : Reading × Nat :=
  let gap := (t.takeWhile isGap).length
  let n := gap + lineEndLength (t.drop gap)
  if 2 ≤ gap then (s.add [.hardBreak false (p.span i n)], n)
  else (s.addEvent .softBreak (p.span i n), n)

/-- Reads a character that typography changes: quotation marks, and more than one hyphen or period. -/
def readTypography (p : Prose) (i : Nat) (before : Option Char) (c : Char) (t : Text) (s : Reading) :
    Reading × Nat :=
  if c = '-' then
    let n := runLength c (c :: t)
    if n = 1 then (s.addText [c] (p.span i 1), 1) else (s.addText (dashes n) (p.span i n), n)
  else if c = '.' then
    if "..".toList.isPrefixOf t then (s.addText ['…'] (p.span i 3), 3) else (s.addText [c] (p.span i 1), 1)
  else
    let after := t.head?
    (s.add [.quote c (canOpen c before after) (canClose c before after) (p.span i 1)], 1)

/-- Reads what starts with the character `i`, which stands between another and a text. The number says how
many characters are taken. -/
def readPiece (setting : Setting) (p : Prose) (i : Nat) (before : Option Char) (c : Char) (t : Text)
    (s : Reading) : Reading × Nat :=
  if endsLineSoon (c :: t) then s.readLineEnd p i (c :: t)
  else if !isSpecial setting.smart c then
    let text := plainText setting.smart (c :: t)
    (s.addText text (p.span i text.length), text.length)
  else
    let asText := (s.addText [c] (p.span i 1), 1)
    match c with
    | '\\' => s.readBackslash p i t
    | '\x60' => s.readTicks p i false (c :: t)
    | '*' | '_' => s.readRun p i before c t
    | '<' => if t.head? = some '\\' then asText else s.readAngle setting p i t
    | '&' =>
      match CharacterReference.read? (c :: t) with
      | some body => (s.addText body.decode (p.span i body.length), body.length)
      | none => asText
    | '[' =>
      let b : Bracket := { isImage := false, mark := (.text [c], p.span i 1), written := c :: t }
      ({ s with brackets := b :: s.brackets }, 1)
    | '!' =>
      if t.head? = some '[' then
        let b : Bracket := { isImage := true, mark := (.text [c, '['], p.span i 2), written := t }
        ({ s with brackets := b :: s.brackets }, 2)
      else asText
    | ']' => s.closeBracket setting p i t
    | _ => s.readTypography p i before c t

/-- Reads a text from the character `i` on, of which the first characters were taken already. -/
def readFrom (setting : Setting) (p : Prose) : (taken i : Nat) → Option Char → Text → Reading → Reading
  | _, _, _, [], s => s
  | n + 1, i, _, c :: t, s => readFrom setting p n (i + 1) (some c) t s
  | 0, i, before, c :: t, s =>
    let (s, n) := s.readPiece setting p i before c t
    readFrom setting p (n - 1) (i + 1) (some c) t s

end Reading

/-- The events of a running text. -/
def Prose.events (setting : Setting) (p : Prose) : List Located :=
  settle false (Reading.readFrom setting p 0 0 none p.text {}).finish

end CommonMark.Markup
