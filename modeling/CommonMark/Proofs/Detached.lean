import CommonMark.Html.Render
import CommonMark.Proofs.Html.Escaping
import CommonMark.Proofs.Segments

/-!
# Detached documents

What a document shows, apart from the source it came from: every segment gets a buffer of its own, and
headers and lists lose the marks they were written with (`Block.detach`). A renderer writes the same for a
document and for what is left of it (`blockSteps_detach`).
-/

namespace CommonMark

/-! ## Without a source -/

/-- The text of a segment in a buffer of its own. -/
def Segment.detach (s : Segment) : Segment := .whole s.text

theorem Segment.isEmpty_detach (s : Segment) : s.detach.isEmpty = s.isEmpty := by
  rw [isEmpty, isEmpty, detach, length_whole, bytes_text]

def Content.detach (c : Content) : Content := ⟨c.segments.map Segment.detach⟩

theorem Content.detach_push (c : Content) (s : Segment) : (c.push s).detach = c.detach.push s.detach := by
  unfold push
  rw [Segment.isEmpty_detach]
  split
  · rfl
  · rw [detach, List.map_append]
    rfl

def Literal.detach : Literal → Literal
  | plain t => .plain t
  | segmented c => .segmented c.detach

theorem Literal.detach_single (s : Segment) : (Literal.single s).detach = .single s.detach :=
  congrArg Literal.segmented (Content.detach_push {} s)

theorem Literal.chunks_detach (l : Literal) : l.detach.chunks = l.chunks.map Segment.detach := by
  cases l with
  | plain t => rfl
  | segmented c => rfl

theorem Literal.text_detach (l : Literal) : l.detach.text = l.text := by
  rw [← flatMap_chunks, chunks_detach, List.flatMap_map, ← flatMap_chunks]
  rfl

namespace Inline

mutual

def detach : Inline → Inline
  | text l => .text l.detach
  | lineBreak => .lineBreak
  | softBreak => .softBreak
  | code l => .code l.detach
  | rawHtml l => .rawHtml l.detach
  | entity l => .entity l.detach
  | link target label => .link target (detachAll label)
  | image target label => .image target (detachAll label)
  | strong cs => .strong (detachAll cs)
  | emphasis cs => .emphasis (detachAll cs)

def detachAll : List Inline → List Inline
  | [] => []
  | i :: is => detach i :: detachAll is

end

theorem detachAll_append (is js : List Inline) : detachAll (is ++ js) = detachAll is ++ detachAll js := by
  induction is with
  | nil => rfl
  | cons i is ih => rw [List.cons_append, detachAll, ih, detachAll, List.cons_append]

end Inline

/-- The kind without the marks of headers and lists. -/
def BlockKind.detach : BlockKind → BlockKind
  | .atxHeader level => .setextHeader level
  | .list (.bullet _) tight => .list (.bullet '-') tight
  | .list (.ordered start _) tight => .list (.ordered start .period) tight
  | kind => kind

theorem BlockKind.detach_eq_listItem {kind : BlockKind} : kind.detach = .listItem ↔ kind = .listItem := by
  cases kind with
  | list style tight => cases style <;> simp [detach]
  | _ => simp [detach]

theorem BlockKind.isContainer_detach (kind : BlockKind) : kind.detach.isContainer = kind.isContainer := by
  cases kind with
  | list style tight => cases style <;> rfl
  | _ => rfl

namespace Block

mutual

/-- A block without its source. -/
def detach : Block → Block
  | ⟨kind, literal, children, inlines⟩ =>
    ⟨kind.detach, literal.map Literal.detach, detachAll children, Inline.detachAll inlines⟩

def detachAll : List Block → List Block
  | [] => []
  | b :: bs => detach b :: detachAll bs

end

@[simp] theorem kind_detach (b : Block) : b.detach.kind = b.kind.detach := by cases b; rfl

@[simp] theorem literal_detach (b : Block) : b.detach.literal = b.literal.map Literal.detach := by cases b; rfl

@[simp] theorem children_detach (b : Block) : b.detach.children = detachAll b.children := by cases b; rfl

@[simp] theorem inlines_detach (b : Block) : b.detach.inlines = Inline.detachAll b.inlines := by cases b; rfl

theorem detachAll_append (bs cs : List Block) : detachAll (bs ++ cs) = detachAll bs ++ detachAll cs := by
  induction bs with
  | nil => rfl
  | cons b bs ih => rw [List.cons_append, detachAll, ih, detachAll, List.cons_append]

end Block

namespace Html

/-! ## Rendering -/

theorem literalPieces_detach (probe : Probe) (l : Literal) :
    literalPieces false probe l.detach = literalPieces false probe l := by
  have hwindow : ∀ w : Segment, pieces (keepsAt false probe w.detach) w.detach.start w.detach.text =
      pieces (keepsAt false probe w) w.start w.text := by
    intro w
    rw [keepsAt_never, keepsAt_never]
    exact pieces_congr fun _ _ _ => rfl
  rw [literalPieces, literalPieces, Literal.chunks_detach, List.flatMap_map]
  simp only [hwindow]

theorem textSteps_detach (probe : Probe) (l : Literal) : textSteps probe l.detach = textSteps probe l := by
  rw [textSteps, literalPieces_detach, ← textSteps]

theorem escapeLiteral_detach (probe : Probe) (l : Literal) :
    escapeLiteral false probe l.detach = escapeLiteral false probe l := by
  rw [escapeLiteral, literalPieces_detach, ← escapeLiteral]

theorem verbatim_detach (l : Literal) : verbatim l.detach = verbatim l := by
  rw [verbatim, Literal.chunks_detach, List.map_map]
  rfl

mutual

theorem altText_detach (probe : Probe) : ∀ i : Inline, altText probe i.detach = altText probe i
  | .text l | .code l | .rawHtml l => escapeLiteral_detach probe l
  | .entity l => l.text_detach
  | .lineBreak | .softBreak => rfl
  | .link _ label | .image _ label => altTexts_detach probe label
  | .strong cs | .emphasis cs => altTexts_detach probe cs

theorem altTexts_detach (probe : Probe) : ∀ is : List Inline,
    altTexts probe (Inline.detachAll is) = altTexts probe is
  | [] => rfl
  | i :: is => by
    rw [Inline.detachAll, altTexts, altText_detach probe i, altTexts_detach probe is, altTexts]

end

mutual

theorem inlineSteps_detach (probe : Probe) : ∀ i : Inline, inlineSteps probe i.detach = inlineSteps probe i
  | .text l => textSteps_detach probe l
  | .lineBreak | .softBreak => rfl
  | .code l => by rw [Inline.detach, inlineSteps, textSteps_detach, inlineSteps]
  | .rawHtml l | .entity l => verbatim_detach l
  | .link target label => by rw [Inline.detach, inlineSteps, inlinesSteps_detach probe label, inlineSteps]
  | .image target label => by rw [Inline.detach, inlineSteps, altTexts_detach probe label, inlineSteps]
  | .strong cs => by rw [Inline.detach, inlineSteps, inlinesSteps_detach probe cs, inlineSteps]
  | .emphasis cs => by rw [Inline.detach, inlineSteps, inlinesSteps_detach probe cs, inlineSteps]

theorem inlinesSteps_detach (probe : Probe) : ∀ is : List Inline,
    inlinesSteps probe (Inline.detachAll is) = inlinesSteps probe is
  | [] => rfl
  | i :: is => by
    rw [Inline.detachAll, inlinesSteps, inlineSteps_detach probe i, inlinesSteps_detach probe is, inlinesSteps]

end

theorem codeBody_detach (probe : Probe) (l : Option Literal) :
    codeBody probe (l.map Literal.detach) = codeBody probe l := by
  cases l with
  | none => rfl
  | some l =>
    have h : textSteps probe l.detach = textSteps probe l := textSteps_detach probe l
    simp only [codeBody, Option.map_some, Option.elim_some, h]

mutual

/-- **A detached block is written like the block.** -/
theorem blockSteps_detach (probe : Probe) : ∀ (tight : Bool) (b : Block),
    blockSteps probe tight b.detach = blockSteps probe tight b
  | tight, ⟨kind, literal, children, inlines⟩ => by
    have hblocks := fun t => blocksSteps_detach probe t children
    have hinlines := inlinesSteps_detach probe inlines
    have hcode := codeBody_detach probe literal
    rw [Block.detach]
    cases kind with
    | list style t => cases style <;> simp only [BlockKind.detach, blockSteps, hblocks] <;> rfl
    | htmlBlock =>
      cases literal with
      | none => rfl
      | some l => exact congrArg (Step.freshLine :: ·) (verbatim_detach l)
    | _ => simp only [BlockKind.detach, blockSteps, hblocks, hinlines, hcode]

theorem blocksSteps_detach (probe : Probe) : ∀ (tight : Bool) (bs : List Block),
    blocksSteps probe tight (Block.detachAll bs) = blocksSteps probe tight bs
  | _, [] => rfl
  | tight, b :: bs => by
    rw [Block.detachAll, blocksSteps, blockSteps_detach probe tight b, blocksSteps_detach probe tight bs,
      blocksSteps]

end

end Html

end CommonMark
