import CommonMark.Text.Literal

/-!
# Documents

The tree of a document: blocks hold blocks, inlines or a literal, and inlines hold inlines. Every block
has all three fields, whatever its kind; each kind uses the ones that its doc comment names.
-/

namespace CommonMark

/-- What follows the number of an ordered list's marker (`OrderedDelimiter`). -/
inductive Delimiter where
  | period
  | paren
  deriving DecidableEq, Repr

/-- How the items of a list are marked (`ListKind`). -/
inductive ListStyle where
  | bullet (marker : Char)
  | ordered (start : Nat) (delimiter : Delimiter)
  deriving DecidableEq, Repr

/-- Where a link or an image leads, with its title (`Linkable`). -/
structure Target where
  url : Text
  title : Option Text
  deriving DecidableEq, Repr

/-- A piece of running text. -/
inductive Inline where
  | text (literal : Literal)
  | lineBreak
  | softBreak
  | code (literal : Literal)
  /-- HTML as written in the source. -/
  | rawHtml (literal : Literal)
  /-- A character reference as written in the source. -/
  | entity (literal : Literal)
  | link (target : Target) (label : List Inline)
  | image (target : Target) (label : List Inline)
  | strong (children : List Inline)
  | emphasis (children : List Inline)

namespace Inline

/-- The inlines inside a link, an image or emphasis (`Inline::children`). -/
def children? : Inline → Option (List Inline)
  | link _ label | image _ label => some label
  | strong cs | emphasis cs => some cs
  | _ => none

end Inline

/-- What a block is. -/
inductive BlockKind where
  /-- The root; uses its children. -/
  | document
  /-- Uses its inlines. -/
  | paragraph
  /-- Uses its children. -/
  | blockQuote
  /-- Uses its children, the items. A tight list shows the paragraphs of its items bare. -/
  | list (style : ListStyle) (tight : Bool)
  /-- Uses its children. -/
  | listItem
  /-- A header marked by number signs; uses its inlines. -/
  | atxHeader (level : Nat)
  /-- An underlined header; uses its inlines. -/
  | setextHeader (level : Nat)
  /-- Uses its literal. -/
  | indentedCode
  /-- Uses its literal. -/
  | fencedCode (info : Text)
  /-- Uses its literal. -/
  | htmlBlock
  /-- A thematic break. -/
  | horizontalRuler
  /-- A link reference definition, which shows nothing. -/
  | referenceDefinition (label : Text)
  deriving DecidableEq, Repr

namespace BlockKind

/-- The name of the kind (`BlockKind::tag`). -/
def tag : BlockKind → String
  | document => "Document"
  | paragraph => "Paragraph"
  | blockQuote => "BlockQuote"
  | list .. => "List"
  | listItem => "ListItem"
  | atxHeader _ => "AtxHeader"
  | setextHeader _ => "SETextHeader"
  | indentedCode => "IndentedCode"
  | fencedCode _ => "FencedCode"
  | htmlBlock => "HtmlBlock"
  | horizontalRuler => "HorizontalRuler"
  | referenceDefinition _ => "ReferenceDefinition"

/-- Whether blocks of this kind hold blocks (`Block::is_container`). -/
def isContainer : BlockKind → Bool
  | document | blockQuote | list .. | listItem => true
  | _ => false

/-- Style and tightness of a list (`Block::list_data`). -/
def list? : BlockKind → Option (ListStyle × Bool)
  | list style tight => some (style, tight)
  | _ => none

end BlockKind

/-- A block with all that it holds. -/
structure Block where
  kind : BlockKind
  literal : Option Literal := none
  children : List Block := []
  inlines : List Inline := []

namespace Block

/-- An empty block. -/
def ofKind (kind : BlockKind) : Block := { kind }

/-- A document of blocks. -/
def document (children : List Block) : Block := { kind := .document, children }

/-- A link reference definition (`Block::reference_definition`). -/
def definition (label : Text) : Block := ofKind (.referenceDefinition label)

mutual

/-- The block and all blocks below it, each before its children. -/
def preorder : Block → List Block
  | ⟨kind, literal, children, inlines⟩ => ⟨kind, literal, children, inlines⟩ :: preorders children

/-- The blocks of several trees, one tree after another. -/
def preorders : List Block → List Block
  | [] => []
  | b :: bs => preorder b ++ preorders bs

end

end Block

end CommonMark
