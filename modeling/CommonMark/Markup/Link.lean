import CommonMark.Document
import CommonMark.Markup.RawTag
import CommonMark.Text.Punctuation

/-!
# Parts of links

Destinations, titles and the inline form that holds both, and links that are written as bare addresses in
angle brackets. Each reader gives what it read and the text that follows.
-/

namespace CommonMark.Markup

open CharacterReference (isLetter isDecimal isNameChar)

/-- A text with escapes and references replaced by what they stand for and carriage returns left out; the
first characters are skipped. -/
def unescapeFrom : Nat → Text → Text
  | _, [] => []
  | n + 1, _ :: t => unescapeFrom n t
  | 0, '\r' :: t => unescapeFrom 0 t
  | 0, '\\' :: c :: t => if isAsciiPunctuation c then c :: unescapeFrom 0 t else '\\' :: unescapeFrom 0 (c :: t)
  | 0, c :: t =>
    match CharacterReference.read? (c :: t) with
    | some body => body.decode ++ unescapeFrom (body.length - 1) t
    | none => c :: unescapeFrom 0 t

/-- A text with escapes and references replaced by what they stand for and carriage returns left out. -/
def unescape (t : Text) : Text := unescapeFrom 0 t

/-- How many open parentheses a destination may have when one more opens. -/
def nestingLimit : Nat := 5

namespace Destination

/-- A destination that angle brackets end, after the first of them. -/
def pointed? : Text → Option (Text × Text)
  | [] => none
  | '>' :: t => some ([], t)
  | '\\' :: c :: t =>
    if isAsciiPunctuation c then (pointed? t).map fun (d, r) => ('\\' :: c :: d, r)
    else (pointed? (c :: t)).map fun (d, r) => ('\\' :: d, r)
  | c :: t =>
    if c = '\n' || c = '\r' || c = '<' then none else (pointed? t).map fun (d, r) => (c :: d, r)

/-- A destination that ends before white space, a control character, or a parenthesis that was not opened in
it. -/
def bare? (nested : Nat) : Text → Option (Text × Text)
  | [] => if nested = 0 then some ([], []) else none
  | '\\' :: c :: t =>
    if isAsciiPunctuation c then (bare? nested t).map fun (d, r) => ('\\' :: c :: d, r)
    else (bare? nested (c :: t)).map fun (d, r) => ('\\' :: d, r)
  | c :: t =>
    if c ≤ ' ' then if nested = 0 then some ([], c :: t) else none
    else if c = '(' then
      if nestingLimit < nested then none else (bare? (nested + 1) t).map fun (d, r) => (c :: d, r)
    else if c = ')' then
      match nested with
      | 0 => some ([], c :: t)
      | n + 1 => (bare? n t).map fun (d, r) => (c :: d, r)
    else (bare? nested t).map fun (d, r) => (c :: d, r)

/-- The destination at the start of a text, as it is written. -/
def read? : Text → Option (Text × Text)
  | '<' :: t => pointed? t
  | t => bare? 0 t

end Destination

/-- The mark that ends a title that starts with a mark. -/
def titleEnd? (c : Char) : Option Char :=
  if c = '"' || c = '\'' then some c else if c = '(' then some ')' else none

namespace InlineLink

/-- The white space between the parts of a link, with at most one line end. -/
def skipSeparator (t : Text) : Text :=
  match t.dropWhile isGap with
  | '\r' :: '\n' :: r => r.dropWhile isGap
  | '\r' :: r => r.dropWhile isGap
  | '\n' :: r => r.dropWhile isGap
  | r => r

/-- The start of a line of a title: its indentation is left out, and a backslash there escapes nothing; the
number says how many characters that are. -/
def titleLineStart (t : Text) : Nat :=
  let indent := (t.takeWhile isIndent).length
  match t.dropWhile isIndent with
  | '\\' :: c :: _ => if isAsciiPunctuation c then indent + 1 else indent
  | _ => indent

/-- The title up to the mark that ends it, after so many characters that are skipped. -/
def titleFrom? (opening closing : Char) : Nat → Text → Option (Text × Text)
  | _, [] => none
  | n + 1, _ :: t => titleFrom? opening closing n t
  | 0, '\\' :: c :: t =>
    if isAsciiPunctuation c then (titleFrom? opening closing 0 t).map fun (s, r) => (c :: s, r)
    else (titleFrom? opening closing 0 (c :: t)).map fun (s, r) => ('\\' :: s, r)
  | 0, c :: t =>
    if c = closing then some ([], t)
    else if c = opening then none
    else if c = '\n' || (c = '\r' && t.head? ≠ some '\n') then
      (titleFrom? opening closing (titleLineStart t) t).map fun (s, r) => ('\n' :: s, r)
    else
      match CharacterReference.read? (c :: t) with
      | some body =>
        (titleFrom? opening closing (body.length - 1) t).map fun (s, r) => (body.decode ++ s, r)
      | none => (titleFrom? opening closing 0 t).map fun (s, r) => (c :: s, r)

/-- The title at the start of a text. -/
def title? : Text → Option (Text × Text)
  | [] => none
  | c :: t => (titleEnd? c).bind fun closing => titleFrom? c closing 0 t

/-- The target in parentheses at the start of a text: a destination and perhaps a title. -/
def read? : Text → Option (Target × Text)
  | '(' :: t => do
    let (destination, t) ← Destination.read? (skipSeparator t)
    let t := skipSeparator t
    let (title, t) :=
      match title? t with
      | some (title, t) => (some title, skipSeparator t)
      | none => (none, t)
    match t with
    | ')' :: t => some (⟨unescape destination, title⟩, t)
    | _ => none
  | _ => none

end InlineLink

namespace Autolink

/-- The characters of a scheme after the first, which is a letter. -/
def isSchemeChar (c : Char) : Bool := isNameChar c || c = '.' || c = '-' || c = '+'

/-- The characters of an address before the at sign. -/
def isLocalChar (c : Char) : Bool :=
  isNameChar c || ".!#$%&'*+/=?^_\x60\x7b|\x7d~-".toList.contains c

/-- An absolute address up to the angle bracket: a scheme of 2 to 32 characters, a colon, and what follows
without white space. -/
def uri? (t : Text) : Option Text :=
  let scheme := t.takeWhile isSchemeChar
  match t.dropWhile isSchemeChar with
  | ':' :: r =>
    let path := r.takeWhile fun c => ' ' < c && c ≠ '<' && c ≠ '>'
    match r.dropWhile fun c => ' ' < c && c ≠ '<' && c ≠ '>' with
    | '>' :: _ =>
      if scheme.head?.any isLetter && decide (2 ≤ scheme.length) && decide (scheme.length ≤ 32) then
        some (scheme ++ ':' :: path)
      else none
    | _ => none
  | _ => none

/-- A label of a host name: letters, digits and inner hyphens, at most 63 of them. -/
def isHostLabel (t : Text) : Bool :=
  t ≠ [] && decide (t.length ≤ 63) && t.head? ≠ some '-' && t.getLast? ≠ some '-'

/-- Whether a text is labels of a host name with periods between them. -/
def isHost (t : Text) : Bool := (t.splitOn '.').all isHostLabel

/-- A mail address up to the angle bracket. -/
def mail? (t : Text) : Option Text :=
  let user := t.takeWhile isLocalChar
  match t.dropWhile isLocalChar with
  | '@' :: r =>
    let host := r.takeWhile fun c => isNameChar c || c = '-' || c = '.'
    match r.dropWhile fun c => isNameChar c || c = '-' || c = '.' with
    | '>' :: _ => if user ≠ [] && isHost host then some (user ++ '@' :: host) else none
    | _ => none
  | _ => none

/-- The address that follows a `<`. -/
def read? (t : Text) : Option Text := uri? t <|> mail? t

end Autolink

end CommonMark.Markup
