import CommonMark.Text.Basic

/-!
# Segments

A segment is a window of bytes in a buffer. `Segment.ofWindow` refuses windows that leave the buffer or
cut a character, so every segment has a text.
-/

namespace CommonMark

/-- Why a window is no segment. -/
inductive SegmentError where
  /-- The window ends after the buffer. -/
  | outOfBounds (start length bufferBytes : Nat)
  /-- The window starts or ends inside the character around this offset. -/
  | notCharBoundary (offset : Nat)
  deriving DecidableEq, Repr

namespace SegmentError

/-- The error in words. -/
def message : SegmentError → String
  | outOfBounds start length bufferBytes =>
    s!"segment {start}+{length} is out of bounds for buffer of length {bufferBytes}"
  | notCharBoundary offset => s!"segment boundary {offset} is not a char boundary"

end SegmentError

/-- A window of `length` bytes from byte `start` of `buffer`, with the text it shows. -/
structure Segment where
  buffer : Text
  start : Nat
  length : Nat
  text : Text
  slice_eq : buffer.slice? start length = some text
  deriving DecidableEq

namespace Segment

/-- The segment over a window, or why there is none; the start is checked before the end (`Segment::new`). -/
def ofWindow (buffer : Text) (start length : Nat) : Except SegmentError Segment :=
  if buffer.bytes < start + length then .error (.outOfBounds start length buffer.bytes)
  else match buffer.isBoundary start, h : buffer.slice? start length with
    | false, _ => .error (.notCharBoundary start)
    | true, none => .error (.notCharBoundary (start + length))
    | true, some text => .ok ⟨buffer, start, length, text, h⟩

/-- The segment that covers a buffer of its own (`Segment::owned`). -/
def whole (text : Text) : Segment :=
  ⟨text, 0, text.bytes, text, by simp [Text.slice?, Text.drop?, Text.take?_bytes]⟩

/-- Offset one past the last byte. -/
def stop (s : Segment) : Nat := s.start + s.length

/-- Whether the window shows nothing (`Segment::is_empty`). -/
def isEmpty (s : Segment) : Bool := s.length = 0

@[simp] theorem text_whole (t : Text) : (whole t).text = t := rfl

@[simp] theorem length_whole (t : Text) : (whole t).length = t.bytes := rfl

end Segment

end CommonMark
