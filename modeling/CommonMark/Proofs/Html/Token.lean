import CommonMark.Html.Escape

/-!
# Well-formed HTML

HTML as text and tags. `WellFormed` is the grammar of the output: it falls into text without angle brackets
and tags whose attribute values have no quote or angle bracket, every tag that is opened is closed by one of
its name before those around it are, and only three tags close themselves.
-/

namespace CommonMark

/-- Whether none of some characters is in a text. -/
def Text.isFreeOf (cs : List Char) (t : Text) : Bool := t.all (· ∉ cs)

namespace Text

theorem isFreeOf_iff {cs : List Char} {t : Text} : t.isFreeOf cs = true ↔ ∀ c ∈ t, c ∉ cs := by
  simp [isFreeOf]

theorem isFreeOf_cons (cs : List Char) (c : Char) (t : Text) :
    isFreeOf cs (c :: t) = (decide (c ∉ cs) && isFreeOf cs t) :=
  List.all_cons

theorem isFreeOf_append (cs : List Char) (s t : Text) : isFreeOf cs (s ++ t) = (isFreeOf cs s && isFreeOf cs t) :=
  List.all_append

theorem isFreeOf_of_subset {cs ds : List Char} (h : cs ⊆ ds) {t : Text} (ht : t.isFreeOf ds = true) :
    t.isFreeOf cs = true :=
  isFreeOf_iff.2 fun c hc hmem => isFreeOf_iff.1 ht c hc (h hmem)

theorem not_mem_of_isFreeOf {cs : List Char} {c : Char} (hc : c ∈ cs) {t : Text} (ht : t.isFreeOf cs = true) : c ∉ t :=
  fun hmem => isFreeOf_iff.1 ht c hmem hc

end Text

namespace Html

/-- A tag as it is written. -/
inductive Mark where
  | opening (name : Text) (attributes : List (Text × Text))
  | closing (name : Text)
  /-- A tag that closes itself. -/
  | void (name : Text) (attributes : List (Text × Text))
  deriving DecidableEq, Repr

namespace Mark

/-- Attributes with a space before each. -/
def writeAttributes (as : List (Text × Text)) : Text :=
  as.flatMap fun a => ' ' :: a.1 ++ ['=', '"'] ++ a.2 ++ ['"']

/-- The tag between its angle brackets. -/
def body : Mark → Text
  | opening name as => name ++ writeAttributes as
  | closing name => '/' :: name
  | void name as => name ++ writeAttributes as ++ [' ', '/']

def write (m : Mark) : Text := '<' :: m.body ++ ['>']

/-- Letters and digits, at least one. -/
def isName (t : Text) : Bool := !t.isEmpty && t.all CharacterReference.isNameChar

/-- The characters that may not stand between double quotes. -/
def reserved : List Char := ['"', '<', '>']

/-- Whether a text may stand between double quotes. -/
def isQuotable (t : Text) : Bool := t.isFreeOf reserved

/-- Whether an attribute has a name, and a value without some characters. -/
def isAttribute (cs : List Char) (a : Text × Text) : Bool := isName a.1 && a.2.isFreeOf cs

/-- The tags that close themselves. -/
def voidNames : List Text := ["br".toList, "hr".toList, "img".toList]

/-- Whether a tag has a name and attributes, with values that some characters are not in. -/
def isValid (cs : List Char) : Mark → Bool
  | opening name as => isName name && as.all (isAttribute cs)
  | closing name => isName name
  | void name as => decide (name ∈ voidNames) && as.all (isAttribute cs)

end Mark

/-- Text as it is written, or a tag. -/
inductive Token where
  | text (t : Text)
  | mark (m : Mark)
  deriving DecidableEq, Repr

namespace Token

def write : Token → Text
  | text t => t
  | mark m => m.write

def isValid : Token → Bool
  | text t => t.isFreeOf ['<', '>']
  | mark m => m.isValid Mark.reserved

end Token

/-- The names of the tags that are open after some tokens, innermost first; nothing when a tag closes what
is not innermost. -/
def openAfter (names : List Text) : List Token → Option (List Text)
  | [] => some names
  | .mark (.opening name _) :: ts => openAfter (name :: names) ts
  | .mark (.closing name) :: ts => if names.head? = some name then openAfter names.tail ts else none
  | .mark (.void ..) :: ts | .text _ :: ts => openAfter names ts

/-- A text that falls into valid tokens which leave no tag open. -/
def WellFormed (t : Text) : Prop :=
  ∃ ts : List Token, ts.flatMap Token.write = t ∧ ts.all Token.isValid = true ∧ openAfter [] ts = some []

end Html

end CommonMark
