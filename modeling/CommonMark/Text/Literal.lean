import CommonMark.Text.Segment

/-!
# Literals

The text of a node, either one plain text or segments in order. No stored segment is empty, because
`Content.push` drops empty ones.
-/

namespace CommonMark

/-- Segments that together form one text (`SegmentedContent`). -/
structure Content where
  segments : List Segment := []
  deriving DecidableEq

namespace Content

/-- Appends a segment, unless it is empty (`SegmentedContent::push`). -/
def push (c : Content) (s : Segment) : Content :=
  if s.isEmpty then c else ⟨c.segments ++ [s]⟩

/-- The content made of segments pushed in order (`SegmentedContent::from_iter`). -/
def ofSegments (ss : List Segment) : Content := ss.foldl push {}

/-- The joined text. -/
def text (c : Content) : Text := c.segments.flatMap (·.text)

/-- The length of the joined text in bytes, summed over the windows (`SegmentedContent::len`). The sum is a word of 64
bits and wraps around. -/
def bytes (c : Content) : Nat := (c.segments.foldl (fun n s => n + UInt64.ofNat s.length) 0).toNat

/-- Whether every window is empty (`SegmentedContent::is_empty`). -/
def isEmpty (c : Content) : Bool := c.segments.all (·.isEmpty)

/-- Whether the text can be read out of one buffer, without joining. -/
def isContiguous (c : Content) : Bool := c.segments.length ≤ 1

end Content

/-- The text of a node. -/
inductive Literal where
  | plain (text : Text)
  | segmented (content : Content)
  deriving DecidableEq

namespace Literal

/-- The windows that make up the literal; a plain text is one window, even when it is empty (`Literal::chunks`). -/
def chunks : Literal → List Segment
  | plain t => [.whole t]
  | segmented c => c.segments

/-- The joined text. -/
def text : Literal → Text
  | plain t => t
  | segmented c => c.text

/-- The length of the text in bytes (`Literal::len`). -/
def bytes : Literal → Nat
  | plain t => t.bytes
  | segmented c => c.bytes

/-- Whether the length is zero (`Literal::is_empty`). -/
def isEmpty (l : Literal) : Bool := l.bytes = 0

/-- Whether the text can be read out of one buffer, without joining (`Literal::to_cow`). -/
def isContiguous : Literal → Bool
  | plain _ => true
  | segmented c => c.isContiguous

instance : Inhabited Literal := ⟨plain []⟩

/-- The windows of a literal show its text. -/
theorem flatMap_chunks (l : Literal) : l.chunks.flatMap (·.text) = l.text := by
  cases l <;> simp [chunks, text, Content.text]

end Literal

end CommonMark
