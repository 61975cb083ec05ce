import CommonMark.CharacterReference
import CommonMark.Markup.Line

/-!
# Raw HTML tags

An opening or closing tag is recognised by a machine that reads one character at a time after the `<`.
White space may hold line ends inside an opening tag, but not inside a closing one.
-/

namespace CommonMark.Markup.RawTag

open CharacterReference (isLetter isNameChar)

/-- White space inside an opening tag. -/
def isBreakOrGap (c : Char) : Bool := isGap c || c = '\n' || c = '\r'

/-- The characters of a tag's name after the first, which is a letter. -/
def isTagChar (c : Char) : Bool := isNameChar c || c = '-'

/-- The characters that an attribute's name starts with. -/
def startsAttribute (c : Char) : Bool := isLetter c || c = '_' || c = ':'

/-- The characters of an attribute's name. -/
def isAttributeChar (c : Char) : Bool :=
  isNameChar c || c = '_' || c = '.' || c = ':' || c = '-'

/-- The characters of a value without quotes. -/
def isBareValueChar (c : Char) : Bool :=
  c ≠ '\'' && c ≠ '"' && c ≠ ' ' && c ≠ '=' && c ≠ '>' && c ≠ '<' && c ≠ '\x60' && c ≠ '\n' && c ≠ '\r'

/-- Where the machine stands inside a tag. -/
inductive State where
  /-- After the `<`. -/
  | opened
  /-- After the `</`. -/
  | slashed
  /-- In the name of an opening tag. -/
  | name
  /-- In white space after the name or a value. -/
  | gap
  /-- In an attribute's name. -/
  | attributeName
  /-- In white space after an attribute's name. -/
  | afterAttribute
  /-- After the equals sign of an attribute. -/
  | beforeValue
  | bareValue
  | quotedValue (quote : Char)
  /-- After the quote that ends a value. -/
  | afterValue
  /-- After the slash that ends an empty tag. -/
  | emptyTag
  /-- In the name of a closing tag. -/
  | closingName
  /-- In white space after the name of a closing tag. -/
  | closingGap
  deriving DecidableEq, Repr

namespace State

/-- Whether a `>` ends the tag here. -/
def canEnd : State → Bool
  | name | gap | attributeName | afterAttribute | bareValue | afterValue | emptyTag | closingName
  | closingGap => true
  | opened | slashed | beforeValue | quotedValue _ => false

/-- What may follow an attribute or its name: white space, another attribute or the slash of an empty
tag. -/
def next? (mayStart : Bool) (afterGap : State) (c : Char) : Option State :=
  if isBreakOrGap c then some afterGap
  else if c = '/' then some emptyTag
  else if mayStart && startsAttribute c then some attributeName
  else none

/-- The state after a character that does not end the tag. -/
def step (c : Char) : State → Option State
  | opened => if c = '/' then some slashed else if isLetter c then some name else none
  | slashed => if isLetter c then some closingName else none
  | name => if isTagChar c then some name else next? false gap c
  | gap => next? true gap c
  | attributeName =>
    if isAttributeChar c then some attributeName
    else if c = '=' then some beforeValue
    else next? false afterAttribute c
  | afterAttribute => if c = '=' then some beforeValue else next? true afterAttribute c
  | beforeValue =>
    if isBreakOrGap c then some beforeValue
    else if c = '"' || c = '\'' then some (quotedValue c)
    else if isBareValueChar c then some bareValue
    else none
  | bareValue => if isBareValueChar c then some bareValue else if isBreakOrGap c then some gap else none
  | quotedValue quote => if c = quote then some afterValue else some (quotedValue quote)
  | afterValue => next? false gap c
  | emptyTag => none
  | closingName =>
    if isTagChar c then some closingName else if isGap c then some closingGap else none
  | closingGap => if isGap c then some closingGap else none

end State

/-- How many characters are read from a state to the `>` that ends the tag, that one counted. -/
def lengthFrom? : State → Text → Option Nat
  | _, [] => none
  | s, c :: t =>
    if c = '>' && s.canEnd then some 1
    else (s.step c).bind fun s' => (lengthFrom? s' t).map (· + 1)

/-- How many characters the tag at the start of a text has. -/
def length? : Text → Option Nat
  | '<' :: t => (lengthFrom? .opened t).map (· + 1)
  | _ => none

end CommonMark.Markup.RawTag
