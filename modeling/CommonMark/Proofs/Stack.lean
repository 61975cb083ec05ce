import CommonMark.Proofs.Offsets
import CommonMark.Proofs.Translation

/-!
# The stack of open blocks

Whatever events a builder takes, in whatever order, its open blocks stay in order (`Stacked`): the outermost is the
document and no other is, a paragraph made for text can only be the innermost and then stands in a container, a block
has a literal just when its kind uses one, and a container has no inlines of its own. Each operation keeps this, so
each event does (`Sound.event`) and so do all events (`Sound.events`).
-/

namespace CommonMark

namespace Block

/-- Whether a block has a literal just when its kind uses one, and then one of segments. -/
def isFit (b : Block) : Bool :=
  match b.literal with
  | none => !b.kind.isVerbatim
  | some (.segmented _) => b.kind.isVerbatim
  | some (.plain _) => false

theorem preorder_eq (b : Block) : b.preorder = b :: preorders b.children := by
  obtain ⟨kind, literal, children, inlines⟩ := b
  rfl

theorem preorders_append (bs cs : List Block) : preorders (bs ++ cs) = preorders bs ++ preorders cs := by
  induction bs with
  | nil => rfl
  | cons b bs ih => rw [List.cons_append, preorders, ih, preorders, List.append_assoc]

end Block

namespace Frame

/-- What an open block is like in itself and in what is attached below it. -/
structure Fit (f : Frame) : Prop where
  own : f.block.isFit = true
  /-- A container has no inlines of its own. -/
  bare : f.block.kind.isContainer = true → f.block.inlines = []
  below : ∀ c ∈ Block.preorders f.block.children, c.isFit = true ∧ c.kind ≠ .document

theorem Fit.attach {f : Frame} (h : f.Fit) {block : Block} (hb : block.isFit = true) (hk : block.kind ≠ .document)
    (hc : ∀ c ∈ Block.preorders block.children, c.isFit = true ∧ c.kind ≠ .document) :
    Fit { f with block.children := f.block.children ++ [block] } := by
  refine ⟨h.own, h.bare, fun c hmem => ?_⟩
  simp only [Block.preorders_append, Block.preorders, List.append_nil, Block.preorder_eq] at hmem
  rcases List.mem_append.1 hmem with hmem | hmem
  · exact h.below c hmem
  · rcases List.mem_cons.1 hmem with rfl | hmem
    · exact ⟨hb, hk⟩
    · exact hc c hmem

/-- A block that has just been opened holds nothing yet. -/
theorem Fit.of_children_nil {f : Frame} (hb : f.block.isFit = true)
    (hi : f.block.kind.isContainer = true → f.block.inlines = []) (hc : f.block.children = []) : f.Fit := by
  refine ⟨hb, hi, fun c hmem => ?_⟩
  rw [hc] at hmem
  cases hmem

/-- What is no container may get inlines. -/
theorem Fit.inlines {f : Frame} (h : f.Fit) (hc : f.block.kind.isContainer ≠ true) (is : List Inline) :
    Fit { f with block.inlines := is } :=
  ⟨h.own, fun hcontainer => absurd hcontainer hc, h.below⟩

/-- Whether the outermost open block is a document as it must be. -/
structure IsRoot (f : Frame) : Prop where
  kind : f.block.kind = .document
  reported : f.implicit = false
  fit : f.Fit

/-- Whether an open block may stand in the one around it. -/
structure Within (f g : Frame) : Prop where
  kind : f.block.kind ≠ .document
  implicit : f.implicit = true → f.block.kind = .paragraph ∧ g.block.kind.isContainer = true
  fit : f.Fit
  /-- The block around was reported, not made for text. -/
  reported : g.implicit = false

end Frame

/-- Whether open blocks, innermost first, are in order. -/
def Stacked : List Frame → Prop
  | [] => False
  | [root] => root.IsRoot
  | f :: g :: fs => f.Within g ∧ Stacked (g :: fs)

namespace Stacked

variable {f g : Frame} {fs : List Frame}

theorem fit (h : Stacked (f :: fs)) : f.Fit := by
  cases fs with
  | nil => exact Frame.IsRoot.fit h
  | cons g fs => exact h.1.fit

/-- The innermost block may change in what it holds. -/
theorem replace (h : Stacked (f :: fs)) (hk : g.block.kind = f.block.kind) (hi : g.implicit = f.implicit)
    (hg : g.Fit) : Stacked (g :: fs) := by
  cases fs with
  | nil => exact Frame.IsRoot.mk (hk.trans h.kind) (hi.trans h.reported) hg
  | cons f' fs =>
    refine ⟨⟨hk ▸ h.1.kind, ?_, hg, h.1.reported⟩, h.2⟩
    rw [hk, hi]
    exact h.1.implicit

/-- A container is a block that was reported. -/
theorem implicit_eq_false (h : Stacked (f :: fs)) (hc : f.block.kind.isContainer = true) : f.implicit = false := by
  cases fs with
  | nil => exact h.reported
  | cons g fs =>
    cases himplicit : f.implicit with
    | false => rfl
    | true =>
      rw [(h.1.implicit himplicit).1] at hc
      cases hc

theorem document (h : Stacked fs) : ∃ above root, fs = above ++ [root] ∧ root.block.kind = .document ∧
    ∀ f ∈ above, f.block.kind ≠ .document := by
  induction fs with
  | nil => exact h.elim
  | cons f fs ih =>
    cases fs with
    | nil => exact ⟨[], f, rfl, h.kind, fun g hg => nomatch hg⟩
    | cons g fs =>
      obtain ⟨above, root, hsplit, hroot, habove⟩ := ih h.2
      refine ⟨f :: above, root, by rw [hsplit, List.cons_append], hroot, ?_⟩
      intro f' hf'
      rcases List.mem_cons.1 hf' with rfl | hf'
      · exact h.1.kind
      · exact habove f' hf'

theorem implicit_tail (h : Stacked (f :: fs)) : ∀ g ∈ fs, g.implicit = false := by
  induction fs generalizing f with
  | nil => exact fun g hg => nomatch hg
  | cons f' fs ih =>
    intro g hg
    rcases List.mem_cons.1 hg with rfl | hg
    · exact h.1.reported
    · exact ih h.2 g hg

theorem fit_of_mem (h : Stacked fs) : ∀ f ∈ fs, f.Fit := by
  induction fs with
  | nil => exact h.elim
  | cons f fs ih =>
    intro g hg
    rcases List.mem_cons.1 hg with rfl | hg
    · exact h.fit
    · cases fs with
      | nil => cases hg
      | cons f' fs => exact ih h.2 g hg

end Stacked

namespace Builder

/-- Whether the open blocks of a builder are in order. -/
def Sound (b : Builder) : Prop := Stacked b.blocks

/-- Whether the innermost block was reported, not made for text. -/
def Reported (b : Builder) : Prop := ∀ f fs, b.blocks = f :: fs → f.implicit = false

theorem sound_new (source : Text) : (new source).Sound :=
  Frame.IsRoot.mk rfl rfl (.of_children_nil rfl (fun _ => rfl) rfl)

namespace Sound

variable {b : Builder}

theorem blocks_ne_nil (h : b.Sound) : b.blocks ≠ [] := by
  intro hnil
  rw [Sound, hnil] at h
  exact h

theorem attach (h : b.Sound) {block : Block} {start : Nat} (hb : block.isFit = true) (hk : block.kind ≠ .document)
    (hc : ∀ c ∈ Block.preorders block.children, c.isFit = true ∧ c.kind ≠ .document) :
    (b.attach block start).Sound := by
  obtain ⟨source, blocks, inlines, loose, starts⟩ := b
  cases blocks with
  | nil => exact h.elim
  | cons f fs => exact Stacked.replace h rfl rfl ((Stacked.fit h).attach hb hk hc)

theorem openBlock (h : b.Sound) (hr : b.Reported) {block : Block} {start : Nat} (hb : block.isFit = true)
    (hk : block.kind ≠ .document) (hi : block.inlines = []) (hc : block.children = []) :
    (b.openBlock block start).Sound := by
  obtain ⟨source, blocks, inlines, loose, starts⟩ := b
  cases blocks with
  | nil => exact h.elim
  | cons f fs =>
    refine ⟨⟨hk, fun himplicit => ?_, .of_children_nil hb (fun _ => hi) hc, hr f fs rfl⟩, h⟩
    cases himplicit

theorem closeBlock (h : b.Sound) : b.closeBlock.Sound := by
  obtain ⟨source, blocks, inlines, loose, starts⟩ := b
  rcases blocks with _ | ⟨f, _ | ⟨g, fs⟩⟩
  · exact h
  · exact h
  · have hf : f.Fit := Stacked.fit h
    exact attach (b := ⟨source, g :: fs, inlines, loose, starts⟩) h.2 hf.own h.1.kind hf.below

/-- Below a block, and so when one has been closed, stand reported blocks only. -/
theorem reported_closeBlock (h : b.Sound) (hlength : 2 ≤ b.blocks.length) : b.closeBlock.Reported := by
  obtain ⟨source, blocks, inlines, loose, starts⟩ := b
  rcases blocks with _ | ⟨f, _ | ⟨g, fs⟩⟩
  · simp at hlength
  · simp at hlength
  · intro f' fs' hblocks
    simp only [Builder.closeBlock, Builder.attach, List.cons.injEq] at hblocks
    rw [← hblocks.1]
    exact h.1.reported

theorem closeImplicit (h : b.Sound) : b.closeImplicit.Sound := by
  unfold Builder.closeImplicit
  split
  · exact h.closeBlock
  · exact h

/-- What closing the paragraph made for text can do: nothing, or it closes the innermost block into a container. -/
theorem closeImplicit_cases (h : b.Sound) :
    (b.Reported ∧ b.closeImplicit = b) ∨ ∃ f g fs, b.blocks = f :: g :: fs ∧ f.implicit = true ∧
      g.block.kind.isContainer = true ∧ b.closeImplicit = b.closeBlock := by
  obtain ⟨source, blocks, inlines, loose, starts⟩ := b
  rcases blocks with _ | ⟨f, fs⟩
  · exact h.elim
  · cases himplicit : f.implicit with
    | false =>
      refine .inl ⟨?_, by simp [Builder.closeImplicit, himplicit]⟩
      intro f' fs' hblocks
      cases hblocks
      exact himplicit
    | true =>
      cases fs with
      | nil => exact absurd (himplicit.symm.trans (Frame.IsRoot.reported h)) (by decide)
      | cons g fs =>
        refine .inr ⟨f, g, fs, rfl, himplicit, (h.1.implicit himplicit).2, ?_⟩
        simp [Builder.closeImplicit, himplicit]

theorem reported_closeImplicit (h : b.Sound) : b.closeImplicit.Reported := by
  rcases h.closeImplicit_cases with ⟨hr, hclose⟩ | ⟨f, g, fs, hblocks, -, -, hclose⟩
  · rw [hclose]
    exact hr
  · rw [hclose]
    exact h.reported_closeBlock (by simp [hblocks])

/-- Opening a block closes a paragraph made for text first. -/
theorem openBlock_closeImplicit (h : b.Sound) {block : Block} {start : Nat} (hb : block.isFit = true)
    (hk : block.kind ≠ .document) (hi : block.inlines = []) (hc : block.children = []) :
    (b.closeImplicit.openBlock block start).Sound :=
  h.closeImplicit.openBlock h.reported_closeImplicit hb hk hi hc

theorem onInlines (h : b.Sound) (f : List Inline → List Inline) : (b.onInlines f).Sound := by
  obtain ⟨source, blocks, inlines, loose, starts⟩ := b
  rcases inlines with _ | ⟨i, is⟩
  · rcases blocks with _ | ⟨top, fs⟩
    · exact h
    · by_cases hc : top.block.kind.isContainer = true
      · have hreported : top.implicit = false := Stacked.implicit_eq_false h hc
        have hpushed : Stacked (⟨{ kind := .paragraph, inlines := f [] }, top.start, true⟩ :: top :: fs) :=
          ⟨⟨by simp, fun _ => ⟨rfl, hc⟩, .of_children_nil rfl (fun h' => nomatch h') rfl, hreported⟩, h⟩
        simpa [Sound, Builder.onInlines, hc] using hpushed
      · have hfit : top.Fit := Stacked.fit h
        have hchanged : Stacked ({ top with block.inlines := f top.block.inlines } :: fs) :=
          Stacked.replace h rfl rfl (hfit.inlines hc _)
        simpa [Sound, Builder.onInlines, hc] using hchanged
  · exact h

theorem getD_pushLiteral? {b' : Builder} (h : b.Sound) (h' : b'.Sound) (s : Segment) :
    ((b.pushLiteral? s).getD b').Sound := by
  obtain ⟨source, blocks, inlines, loose, starts⟩ := b
  unfold pushLiteral?
  split
  · rename_i kind c children inlines' start implicit fs hblocks
    simp only at hblocks
    subst hblocks
    have hfit := Stacked.fit h
    split
    · exact Stacked.replace h rfl rfl ⟨hfit.own, hfit.bare, hfit.below⟩
    · exact Stacked.replace h rfl rfl ⟨hfit.own, hfit.bare, hfit.below⟩
    · exact Stacked.replace h rfl rfl ⟨hfit.own, hfit.bare, hfit.below⟩
    · exact h'
  · exact h'

theorem closeInline (h : b.Sound) : b.closeInline.Sound := by
  obtain ⟨source, blocks, inlines, loose, starts⟩ := b
  cases inlines with
  | nil => exact h
  | cons i is => exact onInlines (b := ⟨source, blocks, is, loose, starts⟩) h _

theorem blocks_markLoose (b : Builder) : b.markLoose.blocks = b.blocks := by
  obtain ⟨source, blocks, inlines, loose, starts⟩ := b
  cases loose <;> rfl

theorem settleList (h : b.Sound) : b.settleList.Sound := by
  obtain ⟨source, blocks, inlines, loose, starts⟩ := b
  unfold Builder.settleList
  simp only
  split
  · rename_i style tight literal children inlines' start implicit fs
    have hfit := Stacked.fit h
    cases fs with
    | nil =>
      have hk := Frame.IsRoot.kind h
      cases hk
    | cons g fs =>
      refine ⟨⟨by simp, fun himplicit => ?_, ⟨hfit.own, hfit.bare, hfit.below⟩, h.1.reported⟩, h.2⟩
      have hk := (h.1.implicit himplicit).1
      cases hk
  · exact h

theorem start (h : b.Sound) (span : Span) (tag : Tag) : (b.start span tag).Sound := by
  cases tag with
  | paragraph =>
    simp only [Builder.start]
    split
    · have hblocks := blocks_markLoose b.closeImplicit
      refine openBlock ?_ ?_ rfl (by simp [Block.ofKind]) rfl rfl
      · rw [Sound, hblocks]
        exact h.closeImplicit
      · rw [Reported, hblocks]
        exact h.reported_closeImplicit
    · exact h.openBlock_closeImplicit rfl (by simp [Block.ofKind]) rfl rfl
  | heading level =>
    simp only [Builder.start]
    split
    · exact h.openBlock_closeImplicit rfl (by simp [Block.ofKind]) rfl rfl
    · exact h.openBlock_closeImplicit rfl (by simp [Block.ofKind]) rfl rfl
  | codeBlock info =>
    cases info with
    | none => exact h.openBlock_closeImplicit rfl (by simp [literalBlock]) rfl rfl
    | some info => exact h.openBlock_closeImplicit rfl (by simp [literalBlock]) rfl rfl
  | htmlBlock => exact h.openBlock_closeImplicit rfl (by simp [literalBlock]) rfl rfl
  | blockQuote | item => exact h.openBlock_closeImplicit rfl (by simp [Block.ofKind]) rfl rfl
  | list first =>
    exact openBlock (b := { b.closeImplicit with loose := false :: b.closeImplicit.loose }) h.closeImplicit
      h.reported_closeImplicit rfl (by simp [Block.ofKind]) rfl rfl
  | _ => exact h

theorem stop (h : b.Sound) (tag : Tag) : (b.stop tag).Sound := by
  cases tag with
  | paragraph | heading _ | blockQuote | codeBlock _ | htmlBlock => exact h.closeBlock
  | item => exact h.closeImplicit.closeBlock
  | list first => exact h.closeImplicit.settleList.closeBlock
  | emphasis | strong | link _ _ | image _ _ | strikethrough | superscript | subscript => exact h.closeInline
  | _ => exact h

/-- **Every event keeps the open blocks in order**, in every state. -/
theorem event (h : b.Sound) (span : Span) (e : Event) : (b.event span e).Sound := by
  cases e with
  | start tag => exact h.start span tag
  | stop tag => exact h.stop tag
  | text t | inlineMath t | displayMath t | html t => exact h.getD_pushLiteral? (h.onInlines _) _
  | code t | inlineHtml t | softBreak | hardBreak => exact h.onInlines _
  | rule =>
    refine h.closeImplicit.attach rfl (by simp [Block.ofKind]) fun c hc => ?_
    cases hc
  | footnoteReference _ | taskListMarker _ => exact h

theorem events (h : b.Sound) (es : List (Event × Span)) : (b.events es).Sound := by
  induction es generalizing b with
  | nil => exact h
  | cons e es ih => exact ih (h.event e.2 e.1)

end Sound

end Builder

end CommonMark
