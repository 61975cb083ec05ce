import CommonMark.Document.Builder

/-!
# Offsets of the document's blocks

Definitions are merged into the document by the offsets at which its blocks start, so a block without an offset
would be lost. After any events, balanced or not, there is an offset for each (`Counted.event`), also when all
that was left open is closed (`Counted.root_closeAll`). The document itself has the offset zero (`Grounded`). What each
change keeps that an event is made of, all events keep (`Kept.events`).
-/

namespace CommonMark

namespace Builder

/-- What a step keeps, any number of steps keep. -/
theorem iterate {P : Builder → Prop} {f : Builder → Builder} (hf : ∀ b, P b → P (f b)) {b : Builder} (h : P b)
    (n : Nat) : P (n.repeat f b) := by
  induction n with
  | zero => exact h
  | succ n ih => exact hf _ ih

/-! ## What steps keep -/

/-- Whether a property of builders is kept by each change that an event is made of. -/
structure Kept (P : Builder → Prop) : Prop where
  attach {b : Builder} (block : Block) (start : Nat) (h : P b) : P (b.attach block start)
  openBlock {b : Builder} (block : Block) (start : Nat) (h : P b) : P (b.openBlock block start)
  closeBlock {b : Builder} (h : P b) : P b.closeBlock
  onInlines {b : Builder} (f : List Inline → List Inline) (h : P b) : P (b.onInlines f)
  getD_pushLiteral? {b b' : Builder} (s : Segment) (h : P b) (h' : P b') : P ((b.pushLiteral? s).getD b')
  settleList {b : Builder} (h : P b) : P b.settleList
  withInlines {b : Builder} (inlines : List InlineFrame) (h : P b) : P { b with inlines }
  withLoose {b : Builder} (loose : List Bool) (h : P b) : P { b with loose }

namespace Kept

variable {P : Builder → Prop} {b : Builder}

theorem closeImplicit (hP : Kept P) (h : P b) : P b.closeImplicit := by
  unfold Builder.closeImplicit
  split
  · exact hP.closeBlock h
  · exact h

theorem pushInlines (hP : Kept P) (h : P b) (is : List Inline) : P (b.pushInlines is) := hP.onInlines _ h

theorem closeInline (hP : Kept P) (h : P b) : P b.closeInline := by
  obtain ⟨source, blocks, inlines, loose, starts⟩ := b
  cases inlines with
  | nil => exact h
  | cons i is => exact hP.pushInlines (hP.withInlines is h) _

theorem markLoose (hP : Kept P) (h : P b) : P b.markLoose := by
  obtain ⟨source, blocks, inlines, loose, starts⟩ := b
  cases loose with
  | nil => exact h
  | cons l ls => exact hP.withLoose (true :: ls) h

theorem start (hP : Kept P) (h : P b) (span : Span) (tag : Tag) : P (b.start span tag) := by
  have hclose := hP.closeImplicit h
  cases tag with
  | paragraph =>
    simp only [Builder.start]
    split
    · exact hP.openBlock _ _ (hP.markLoose hclose)
    · exact hP.openBlock _ _ hclose
  | codeBlock info => cases info <;> exact hP.openBlock _ _ hclose
  | heading _ | blockQuote | htmlBlock | item => exact hP.openBlock _ _ hclose
  | list first => exact hP.openBlock _ _ (hP.withLoose (false :: b.closeImplicit.loose) hclose)
  | emphasis | strong | link _ _ | image _ _ | strikethrough | superscript | subscript => exact hP.withInlines _ h
  | _ => exact h

theorem stop (hP : Kept P) (h : P b) (tag : Tag) : P (b.stop tag) := by
  have hclose := hP.closeImplicit h
  cases tag with
  | paragraph | heading _ | blockQuote | codeBlock _ | htmlBlock => exact hP.closeBlock h
  | item => exact hP.closeBlock hclose
  | list first => exact hP.closeBlock (hP.settleList hclose)
  | emphasis | strong | link _ _ | image _ _ | strikethrough | superscript | subscript => exact hP.closeInline h
  | _ => exact h

theorem event (hP : Kept P) (h : P b) (span : Span) (e : Event) : P (b.event span e) := by
  cases e with
  | start tag => exact hP.start h span tag
  | stop tag => exact hP.stop h tag
  | text t | inlineMath t | displayMath t => exact hP.getD_pushLiteral? _ h (hP.onInlines _ h)
  | html t => exact hP.getD_pushLiteral? _ h (hP.pushInlines h _)
  | code t | inlineHtml t | softBreak | hardBreak => exact hP.pushInlines h _
  | rule => exact hP.attach _ _ (hP.closeImplicit h)
  | footnoteReference _ | taskListMarker _ => exact h

theorem events (hP : Kept P) (h : P b) (es : List (Event × Span)) : P (b.events es) := by
  induction es generalizing b with
  | nil => exact h
  | cons e es ih => exact ih (hP.event h e.2 e.1)

theorem closeAll (hP : Kept P) (h : P b) : P b.closeAll :=
  iterate (P := P) (fun _ => hP.closeBlock) (iterate (P := P) (fun _ => hP.closeInline) h _) _

end Kept

/-! ## An offset for each block -/

/-- The innermost open block; once all is closed, the document. -/
def root (b : Builder) : Block := (b.blocks.head?.map (·.block)).getD (.ofKind .document)

/-- How many blocks the document has below it so far. -/
def rootSize? (b : Builder) : Option Nat := b.blocks.getLast?.map (·.block.children.length)

/-- Whether the document is open and each block below it has an offset. -/
def Counted (b : Builder) : Prop := b.rootSize? = some b.starts.length

theorem counted_new (source : Text) : (new source).Counted := rfl

namespace Counted

variable {b : Builder}

theorem blocks_ne_nil (h : b.Counted) : b.blocks ≠ [] := by
  intro hnil
  rw [Counted, rootSize?, hnil] at h
  cases h

theorem attach (h : b.Counted) (block : Block) (start : Nat) : (b.attach block start).Counted := by
  obtain ⟨source, blocks, inlines, loose, starts⟩ := b
  rcases blocks with _ | ⟨f, _ | ⟨g, fs⟩⟩
  · exact absurd rfl h.blocks_ne_nil
  · simpa [Counted, rootSize?, Builder.attach] using h
  · simpa [Counted, rootSize?, Builder.attach] using h

theorem openBlock (h : b.Counted) (block : Block) (start : Nat) : (b.openBlock block start).Counted := by
  obtain ⟨source, blocks, inlines, loose, starts⟩ := b
  cases blocks with
  | nil => exact absurd rfl h.blocks_ne_nil
  | cons f fs => exact h

theorem closeBlock (h : b.Counted) : b.closeBlock.Counted := by
  obtain ⟨source, blocks, inlines, loose, starts⟩ := b
  rcases blocks with _ | ⟨f, _ | ⟨g, fs⟩⟩
  · exact h
  · exact h
  · have hrest : Counted ⟨source, g :: fs, inlines, loose, starts⟩ := h
    exact hrest.attach f.block f.start

theorem onInlines (h : b.Counted) (f : List Inline → List Inline) : (b.onInlines f).Counted := by
  obtain ⟨source, blocks, inlines, loose, starts⟩ := b
  cases inlines with
  | cons i is => exact h
  | nil =>
    cases blocks with
    | nil => exact h
    | cons top fs =>
      by_cases hc : top.block.kind.isContainer = true
      · simpa [Builder.onInlines, hc, Counted, rootSize?] using h
      · cases fs <;> simpa [Builder.onInlines, hc, Counted, rootSize?] using h

theorem getD_pushLiteral? {b' : Builder} (h : b.Counted) (h' : b'.Counted) (s : Segment) :
    ((b.pushLiteral? s).getD b').Counted := by
  obtain ⟨source, blocks, inlines, loose, starts⟩ := b
  unfold pushLiteral?
  split
  · rename_i fs hblocks
    simp only at hblocks
    subst hblocks
    split
    · cases fs <;> exact h
    · cases fs <;> exact h
    · cases fs <;> exact h
    · exact h'
  · exact h'

theorem settleList (h : b.Counted) : b.settleList.Counted := by
  obtain ⟨source, blocks, inlines, loose, starts⟩ := b
  unfold Builder.settleList
  simp only
  split
  · rename_i fs
    cases fs <;> exact h
  · exact h

theorem kept : Kept Counted where
  attach block start h := h.attach block start
  openBlock block start h := h.openBlock block start
  closeBlock h := h.closeBlock
  onInlines f h := h.onInlines f
  getD_pushLiteral? s h h' := h.getD_pushLiteral? h' s
  settleList h := h.settleList
  withInlines _ h := h
  withLoose _ h := h

theorem closeImplicit (h : b.Counted) : b.closeImplicit.Counted := kept.closeImplicit h

theorem closeInline (h : b.Counted) : b.closeInline.Counted := kept.closeInline h

/-- **No event leaves a block of the document without an offset.** -/
theorem event (h : b.Counted) (span : Span) (e : Event) : (b.event span e).Counted := kept.event h span e

theorem events (h : b.Counted) (es : List (Event × Span)) : (b.events es).Counted := kept.events h es

theorem closeAll (h : b.Counted) : b.closeAll.Counted := kept.closeAll h

end Counted

/-! ## The document's own offset -/

/-- Whether the document is open and has the offset zero. -/
def Grounded (b : Builder) : Prop := b.blocks.getLast?.map (·.start) = some 0

theorem grounded_new (source : Text) : (new source).Grounded := rfl

namespace Grounded

variable {b : Builder}

/-- Where only what the innermost block holds is different, the offset is the same. -/
theorem of_blocks {b' : Builder} (h : b.Grounded) {f g : Frame} {fs : List Frame} (hb : b.blocks = f :: fs)
    (hb' : b'.blocks = g :: fs) (hg : g.start = f.start) : b'.Grounded := by
  rw [Grounded, hb] at h
  rw [Grounded, hb']
  cases fs with
  | nil => simpa [hg] using h
  | cons f' fs => exact h

theorem attach (h : b.Grounded) (block : Block) (start : Nat) : (b.attach block start).Grounded := by
  obtain ⟨source, blocks, inlines, loose, starts⟩ := b
  cases blocks with
  | nil => exact h
  | cons f fs => exact h.of_blocks rfl rfl rfl

theorem openBlock (h : b.Grounded) (block : Block) (start : Nat) : (b.openBlock block start).Grounded := by
  obtain ⟨source, blocks, inlines, loose, starts⟩ := b
  cases blocks with
  | nil => cases h
  | cons f fs => exact h

theorem closeBlock (h : b.Grounded) : b.closeBlock.Grounded := by
  obtain ⟨source, blocks, inlines, loose, starts⟩ := b
  rcases blocks with _ | ⟨f, _ | ⟨g, fs⟩⟩
  · exact h
  · exact h
  · have hrest : Grounded ⟨source, g :: fs, inlines, loose, starts⟩ := h
    exact hrest.attach f.block f.start

theorem onInlines (h : b.Grounded) (f : List Inline → List Inline) : (b.onInlines f).Grounded := by
  obtain ⟨source, blocks, inlines, loose, starts⟩ := b
  cases inlines with
  | cons i is => exact h
  | nil =>
    cases blocks with
    | nil => exact h
    | cons top fs =>
      by_cases hc : top.block.kind.isContainer = true
      · simpa [Builder.onInlines, hc, Grounded] using h
      · simp only [Builder.onInlines, hc]
        exact h.of_blocks rfl rfl rfl

theorem getD_pushLiteral? {b' : Builder} (h : b.Grounded) (h' : b'.Grounded) (s : Segment) :
    ((b.pushLiteral? s).getD b').Grounded := by
  obtain ⟨source, blocks, inlines, loose, starts⟩ := b
  unfold pushLiteral?
  split
  · rename_i fs hblocks
    simp only at hblocks
    subst hblocks
    split
    · exact h.of_blocks rfl rfl rfl
    · exact h.of_blocks rfl rfl rfl
    · exact h.of_blocks rfl rfl rfl
    · exact h'
  · exact h'

theorem settleList (h : b.Grounded) : b.settleList.Grounded := by
  obtain ⟨source, blocks, inlines, loose, starts⟩ := b
  unfold Builder.settleList
  simp only
  split
  · exact h.of_blocks rfl rfl rfl
  · exact h

theorem kept : Kept Grounded where
  attach block start h := h.attach block start
  openBlock block start h := h.openBlock block start
  closeBlock h := h.closeBlock
  onInlines f h := h.onInlines f
  getD_pushLiteral? s h h' := h.getD_pushLiteral? h' s
  settleList h := h.settleList
  withInlines _ h := h
  withLoose _ h := h

end Grounded

/-! ## All closed -/

theorem length_attach (b : Builder) (block : Block) (start : Nat) :
    (b.attach block start).blocks.length = b.blocks.length := by
  obtain ⟨source, blocks, inlines, loose, starts⟩ := b
  cases blocks <;> rfl

theorem length_closeBlock (b : Builder) : b.closeBlock.blocks.length - 1 = b.blocks.length - 1 - 1 := by
  obtain ⟨source, blocks, inlines, loose, starts⟩ := b
  rcases blocks with _ | ⟨f, _ | ⟨g, fs⟩⟩
  · rfl
  · rfl
  · have h := length_attach ⟨source, g :: fs, inlines, loose, starts⟩ f.block f.start
    rw [closeBlock, h]
    rfl

theorem length_repeat_closeBlock (n : Nat) (b : Builder) :
    (n.repeat closeBlock b).blocks.length - 1 = b.blocks.length - 1 - n := by
  induction n with
  | zero => rfl
  | succ n ih =>
    rw [Nat.repeat, length_closeBlock, ih]
    omega

theorem length_closeAll (b : Builder) : b.closeAll.blocks.length ≤ 1 := by
  have h := length_repeat_closeBlock ((b.inlines.length.repeat closeInline b).blocks.length - 1)
    (b.inlines.length.repeat closeInline b)
  rw [closeAll]
  omega

/-- When all is closed, the document and its offsets are left. -/
theorem Counted.root_closeAll {b : Builder} (h : b.Counted) :
    b.closeAll.root.children.length = b.closeAll.starts.length := by
  have hone := b.length_closeAll
  have hcounted := h.closeAll
  generalize b.closeAll = b' at hone hcounted
  obtain ⟨source, blocks, inlines, loose, starts⟩ := b'
  rcases blocks with _ | ⟨f, _ | ⟨g, fs⟩⟩
  · exact absurd rfl hcounted.blocks_ne_nil
  · exact Option.some.inj hcounted
  · simp at hone

end Builder

end CommonMark
