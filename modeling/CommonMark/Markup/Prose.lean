import CommonMark.Markup.Draft

/-!
# Running text

The lines of a paragraph or heading as one text. The marks of the containers around it are left out, so each
character has its own byte offset in the source.
-/

namespace CommonMark.Markup

/-- The byte offset of each character of a text that starts at an offset. -/
def charOffsets (start : Nat) : Text → List Nat
  | [] => []
  | c :: t => start :: charOffsets (start + c.utf8Size) t

/-- The running text of a block. -/
structure Prose where
  text : Text
  /-- The byte offset of each character. -/
  offsets : Array Nat
  /-- Byte offset of the end of the text. -/
  stop : Nat
  /-- Byte offset of the end of the block. -/
  blockStop : Nat

namespace Prose

/-- The text of lines, in a block that ends at an offset. -/
def ofLines (lines : List Line) (blockStop : Nat) : Prose where
  text := lines.flatMap Line.text
  offsets := (lines.flatMap fun l => charOffsets l.start l.text).toArray
  stop := (lines.getLast?.map Line.stop).getD blockStop
  blockStop

/-- The byte offset of a character, or of the end. -/
def offset (p : Prose) (i : Nat) : Nat := p.offsets.getD i p.stop

/-- The bytes of some characters. -/
def span (p : Prose) (i n : Nat) : Span := ⟨p.offset i, p.offset (i + n)⟩

end Prose

end CommonMark.Markup
