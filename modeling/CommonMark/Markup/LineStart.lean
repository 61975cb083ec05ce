import CommonMark.Event
import CommonMark.Markup.RawTag

/-!
# What starts a block

The constructs that a line can start with, each recognised by the text after the line's indentation: thematic
breaks, headings, code fences, list markers and HTML. `interruptsParagraph` says which of them end a paragraph
that is not followed by a blank line.
-/

namespace CommonMark.Markup

/-- A place in a source: what is left of its line, and the lines that follow. -/
structure Place where
  rest : Text
  ending : LineEnd
  following : List Line

namespace Place

/-- What is left up to the next line feed. -/
def physical (p : Place) : Text := (Line.physical p.rest p.ending p.following).1

end Place

/-- How often a character stands at the start of a text. -/
def runLength (mark : Char) (t : Text) : Nat := (t.takeWhile (· = mark)).length

/-- Three or more `*`, `-` or `_`, all the same, with any spaces and tabs between and after them. -/
def isThematicBreak : Text → Bool
  | [] => false
  | mark :: t =>
    (mark = '*' || mark = '-' || mark = '_') &&
      t.all (fun c => c = mark || isIndent c) && decide (2 ≤ t.count mark)

/-- The level of a heading that is marked by number signs. -/
def atxLevel? (t : Text) : Option HeadingLevel :=
  match t.dropWhile (· = '#') with
  | [] => HeadingLevel.ofNat? (runLength '#' t)
  | c :: _ => if isGap c then HeadingLevel.ofNat? (runLength '#' t) else none

/-- The level of a heading that this line underlines. -/
def underlineLevel? : Text → Option HeadingLevel
  | '=' :: t => if isBlankLine (t.dropWhile (· = '=')) then some .h1 else none
  | '-' :: t => if isBlankLine (t.dropWhile (· = '-')) then some .h2 else none
  | _ => none

/-- The marks around a block of code. -/
structure Fence where
  mark : Char
  length : Nat
  deriving DecidableEq, Repr

namespace Fence

/-- Three or more backticks or tildes. After backticks there is none before the next line feed. -/
def open? (p : Place) : Option Fence :=
  match p.rest with
  | [] => none
  | mark :: _ =>
    let n := runLength mark p.rest
    if n < 3 then none
    else if mark = '~' then some ⟨mark, n⟩
    else if mark = '\x60' && !(p.physical.drop n).contains mark then some ⟨mark, n⟩
    else none

/-- Whether a line is the closing fence: at least as many marks, then spaces only. -/
def isClosedBy (f : Fence) (t : Text) : Bool :=
  decide (f.length ≤ runLength f.mark t) && (t.dropWhile (· = f.mark)).all (· = ' ')

end Fence

/-- What marks an item of a list. -/
structure ListMarker where
  /-- The bullet, or what follows the number. -/
  mark : Char
  number : Option Nat
  /-- Characters of the whole marker. -/
  width : Nat
  deriving DecidableEq, Repr

namespace ListMarker

/-- Whether a character is a bullet. -/
def isBullet (c : Char) : Bool := c = '-' || c = '+' || c = '*'

/-- A bullet, or up to nine digits and a period or parenthesis. -/
def sign? : Text → Option ListMarker
  | [] => none
  | c :: t =>
    if isBullet c then some ⟨c, none, 1⟩
    else
      let digits := (c :: t).takeWhile CharacterReference.isDecimal
      match (c :: t).dropWhile CharacterReference.isDecimal with
      | mark :: _ =>
        if (mark = '.' || mark = ')') && digits ≠ [] && decide (digits.length ≤ 9) then
          some ⟨mark, some (CharacterReference.value 10 digits), digits.length + 1⟩
        else none
      | [] => none

/-- A sign that white space or the line's end follows. -/
def open? (t : Text) : Option ListMarker :=
  (sign? t).filter fun m => (t.drop m.width).head?.all isIndent

end ListMarker

/-- What ends an HTML block. -/
inductive HtmlEnd where
  /-- The line in which this text stands. -/
  | closing (text : Text)
  | blankLine
  deriving DecidableEq, Repr

namespace HtmlEnd

/-- A text with its ASCII letters in lower case. -/
def lowerCase (t : Text) : Text := t.map Char.toLower

/-- The elements whose text is kept as it is, up to their closing tag. -/
def rawElements : List Text := ["pre", "style", "script", "textarea"].map String.toList

/-- The elements that start a block wherever they stand on a line of their own. -/
def blockElements : List Text :=
  ["address", "article", "aside", "base", "basefont", "blockquote", "body", "caption", "center", "col",
   "colgroup", "dd", "details", "dialog", "dir", "div", "dl", "dt", "fieldset", "figcaption", "figure",
   "footer", "form", "frame", "frameset", "h1", "h2", "h3", "h4", "h5", "h6", "head", "header", "hr",
   "html", "iframe", "legend", "li", "link", "main", "menu", "menuitem", "nav", "noframes", "ol",
   "optgroup", "option", "p", "param", "search", "section", "summary", "table", "tbody", "td", "tfoot",
   "th", "thead", "title", "tr", "track", "ul"].map String.toList

/-- The closing tag of an element whose text is kept and whose name follows the `<`. -/
def rawClosing? (t : Text) : Option Text :=
  (rawElements.find? fun name =>
    name == lowerCase (t.take name.length) && (t.drop name.length).head?.all fun c => isGap c || c = '>').map
    fun name => '<' :: '/' :: name ++ ['>']

/-- The text that ends a comment, an instruction, a declaration or a section of character data, from what
follows the `<`. -/
def specialClosing? (t : Text) : Option Text :=
  if "!--".toList.isPrefixOf t then some "-->".toList
  else if "?".toList.isPrefixOf t then some "?>".toList
  else if "![CDATA[".toList.isPrefixOf t then some "]]>".toList
  else match t with
    | '!' :: c :: _ => if CharacterReference.isLetter c then some [('>')] else none
    | _ => none

/-- Whether a tag of a block element follows the `<`, at least as far as its name goes. -/
def isBlockElement (t : Text) : Bool :=
  let t := match t with
    | '/' :: t => t
    | t => t
  let name := t.takeWhile CharacterReference.isNameChar
  blockElements.contains (lowerCase name) &&
    match t.dropWhile CharacterReference.isNameChar with
    | [] => true
    | '/' :: '>' :: _ => true
    | c :: _ => isIndent c || c = '>'

/-- The end of an HTML block that starts here and can interrupt a paragraph. -/
def interrupting? : Text → Option HtmlEnd
  | '<' :: t =>
    match rawClosing? t <|> specialClosing? t with
    | some text => some (closing text)
    | none => if isBlockElement t then some blankLine else none
  | _ => none

/-- The end of an HTML block that starts here: a tag alone on its line starts one too, if no paragraph is
open. -/
def open? (t : Text) : Option HtmlEnd :=
  interrupting? t <|>
    match RawTag.length? t with
    | some n => if isBlankLine (t.drop n) then some blankLine else none
    | none => none

end HtmlEnd

/-- Whether a list item starts here that ends the paragraph before it. A paragraph in the same containers is
ended only by a bullet or the number one, and not by a marker that is followed by a blank line or by nothing
at all. -/
def itemInterrupts (sameContainers : Bool) (p : Place) : Bool :=
  match ListMarker.open? p.rest with
  | none => false
  | some m =>
    let isEmpty := isBlankLine (p.rest.drop m.width) && p.following.head?.all (isBlankLine ·.body)
    !sameContainers || (m.number.all (· = 1) && !isEmpty)

/-- Whether what stands after the indentation of a line ends the paragraph before it. -/
def interruptsParagraph (sameContainers : Bool) (p : Place) : Bool :=
  p.rest.isEmpty || isThematicBreak p.rest || (atxLevel? p.rest).isSome || (Fence.open? p).isSome ||
    p.rest.head? = some '>' || itemInterrupts sameContainers p || (HtmlEnd.interrupting? p.rest).isSome

end CommonMark.Markup
