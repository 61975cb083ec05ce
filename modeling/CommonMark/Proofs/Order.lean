import CommonMark.Proofs.Kept
import CommonMark.Proofs.Nesting

/-!
# Text in order

A builder that takes a well nested stream comes back to what was open, and the texts of the stream come after those
that it had (`took_of_wellNested`): a block closes into a container, which has no inlines after its blocks, and a
literal takes text only while its block holds nothing else. So the finished document has the texts in the order of the
events (`segmentTexts_ofEvents`).
-/

namespace CommonMark

/-- Whether a document has a place for running text that an event reports. -/
def Event.shows : Event → Bool
  | footnoteReference _ | taskListMarker _ => false
  | _ => true

namespace Builder

/-! ## What is open -/

/-- The kinds of open blocks that were reported. -/
def kinds (fs : List Frame) : List BlockKind := (fs.filter (!·.implicit)).map (·.block.kind)

/-- The kinds of the open blocks, innermost first, without the paragraph made for text. -/
def path (b : Builder) : List BlockKind := kinds b.blocks

theorem kinds_cons_of_reported {f : Frame} (h : f.implicit = false) (fs : List Frame) :
    kinds (f :: fs) = f.block.kind :: kinds fs := by
  simp [kinds, h]

theorem kinds_cons_of_implicit {f : Frame} (h : f.implicit = true) (fs : List Frame) : kinds (f :: fs) = kinds fs := by
  simp [kinds, h]

variable {b b' : Builder}

theorem path_attach (b : Builder) (block : Block) (start : Nat) : (b.attach block start).path = b.path := by
  obtain ⟨source, blocks, inlines, loose, starts⟩ := b
  cases blocks with
  | nil => rfl
  | cons f fs => cases himplicit : f.implicit <;> simp [attach, path, kinds, himplicit]

theorem inlines_attach (b : Builder) (block : Block) (start : Nat) : (b.attach block start).inlines = b.inlines := by
  obtain ⟨source, blocks, inlines, loose, starts⟩ := b
  cases blocks <;> rfl

theorem Reported.attach (h : b.Reported) (block : Block) (start : Nat) : (b.attach block start).Reported := by
  obtain ⟨source, blocks, inlines, loose, starts⟩ := b
  cases blocks with
  | nil => exact h
  | cons f fs =>
    intro f' fs' hblocks
    cases hblocks
    exact h f fs rfl

theorem path_closeBlock {f g : Frame} {fs : List Frame} (h : b.blocks = f :: g :: fs) :
    b.closeBlock.path = kinds (g :: fs) := by
  rw [closeBlock, h]
  exact path_attach _ _ _

theorem path_closeImplicit (h : b.Sound) : b.closeImplicit.path = b.path := by
  rcases h.closeImplicit_cases with ⟨-, hclose⟩ | ⟨f, g, fs, hblocks, himplicit, -, hclose⟩
  · rw [hclose]
  · rw [hclose, path_closeBlock hblocks, path, hblocks, kinds_cons_of_implicit himplicit]

theorem path_onInlines (b : Builder) (f : List Inline → List Inline) : (b.onInlines f).path = b.path := by
  obtain ⟨source, blocks, inlines, loose, starts⟩ := b
  rcases inlines with _ | ⟨i, is⟩
  · rcases blocks with _ | ⟨top, fs⟩
    · rfl
    · by_cases hc : top.block.kind.isContainer = true
      · simp [onInlines, hc, path, kinds]
      · cases himplicit : top.implicit <;> simp [onInlines, hc, path, kinds, himplicit]
  · rfl

theorem path_closeInline (b : Builder) : b.closeInline.path = b.path := by
  obtain ⟨source, blocks, inlines, loose, starts⟩ := b
  cases inlines with
  | nil => rfl
  | cons i is => exact path_onInlines ⟨source, blocks, is, loose, starts⟩ _

theorem inlines_closeImplicit (b : Builder) : b.closeImplicit.inlines = b.inlines := by
  unfold closeImplicit
  split
  · exact b.inlines_closeBlock
  · rfl

/-- The blocks below the innermost one were all reported. -/
theorem kinds_tail {f g : Frame} {fs : List Frame} (h : Stacked (f :: g :: fs)) :
    kinds (g :: fs) = g.block.kind :: kinds fs :=
  kinds_cons_of_reported h.1.reported fs

theorem path_ne_nil (h : b.Sound) : b.path ≠ [] := by
  obtain ⟨source, blocks, inlines, loose, starts⟩ := b
  rcases blocks with _ | ⟨f, _ | ⟨g, fs⟩⟩
  · exact h.elim
  · have hf : f.implicit = false := Frame.IsRoot.reported h
    simp [path, kinds, hf]
  · have hg : g.implicit = false := h.1.reported
    cases hf : f.implicit <;> simp [path, kinds, hf, hg]

/-- Where a block is open that is no container, it is the innermost. -/
theorem reported_of_path {k : BlockKind} {ks : List BlockKind} (h : b.Sound) (hpath : b.path = k :: ks)
    (hk : k.isContainer = false) : b.Reported := by
  rcases h.closeImplicit_cases with ⟨hr, -⟩ | ⟨f, g, fs, hblocks, himplicit, hg, -⟩
  · exact hr
  · -- the container below would be `k`
    rw [Sound, hblocks] at h
    rw [path, hblocks, kinds_cons_of_implicit himplicit, kinds_tail h, List.cons.injEq] at hpath
    rw [hpath.1, hk] at hg
    cases hg

/-- Only containers are open and perhaps a paragraph made for text, so no literal is. -/
theorem holdsLiteral_of_path (h : b.Sound) (hpath : ∀ k ∈ b.path, k.isContainer = true) : b.HoldsLiteral = false := by
  obtain ⟨source, blocks, inlines, loose, starts⟩ := b
  rcases blocks with _ | ⟨f, fs⟩
  · rfl
  · cases himplicit : f.implicit with
    | false =>
      have hf := hpath f.block.kind (by simp [path, kinds, himplicit])
      cases hkind : f.block.kind <;> simp_all [HoldsLiteral, BlockKind.isContainer, BlockKind.isVerbatim]
    | true =>
      cases fs with
      | nil => exact absurd (himplicit.symm.trans (Frame.IsRoot.reported h)) (by decide)
      | cons g fs => simp [HoldsLiteral, (h.1.implicit himplicit).1, BlockKind.isVerbatim]

/-! ## Events that come where they may -/

/-- Whether a builder is between the blocks of a container: no other block that was reported is open, and no inline. -/
structure Between (b : Builder) : Prop where
  path : ∀ k ∈ b.path, k.isContainer = true
  inlines : b.inlines = []

/-- Whether what may stand in a place may come next. Only in an item can a paragraph made for text be open. -/
def Fits (b : Builder) : Place → Prop
  | .blocks => b.Between ∧ b.Reported
  | .item => b.Between
  | .text => b.HoldsLiteral = false
  | .lines => b.HoldsLiteral = true ∧ b.besides = []

/-- Whether a builder came back to what was open, with some texts more. -/
structure Took (b : Builder) (ts : List Text) (b' : Builder) : Prop where
  path : b'.path = b.path
  inlines : b'.inlines.length = b.inlines.length
  texts : b'.texts = b.texts ++ ts

namespace Took

variable {ts ts' : List Text}

theorem refl (b : Builder) : b.Took [] b := ⟨rfl, rfl, (List.append_nil _).symm⟩

theorem trans {b'' : Builder} (h : b.Took ts b') (h' : b'.Took ts' b'') : b.Took (ts ++ ts') b'' :=
  ⟨h'.path.trans h.path, h'.inlines.trans h.inlines, by rw [h'.texts, h.texts, List.append_assoc]⟩

theorem between (h : b.Took ts b') (hb : b.Between) : b'.Between := by
  have hlength := h.inlines
  rw [hb.inlines, List.length_nil, List.length_eq_zero_iff] at hlength
  exact ⟨h.path ▸ hb.path, hlength⟩

/-- Blocks fit again, when no paragraph made for text was left. -/
theorem fits (h : b.Took ts b') {p : Place} (hp : p.hasBlocks = true) (hfits : b.Fits p) (hr : b'.Reported) :
    b'.Fits p := by
  cases p with
  | blocks => exact ⟨h.between hfits.1, hr⟩
  | item => exact h.between hfits
  | text | lines => cases hp

end Took

variable {p q : Place}

theorem Fits.between (h : b.Fits p) (hp : p.hasBlocks = true) : b.Between := by
  cases p with
  | blocks => exact h.1
  | item => exact h
  | text | lines => cases hp

theorem Fits.holdsLiteral (h : b.Fits p) (hsound : b.Sound) (hp : p.hasText = true) : b.HoldsLiteral = false := by
  cases p with
  | item => exact holdsLiteral_of_path hsound (Between.path h)
  | text => exact h
  | blocks | lines => cases hp

/-- Running text fits again after a change of what it goes to. -/
theorem Fits.onInlines (h : b.Fits p) (hp : p.hasText = true) (f : List Inline → List Inline) :
    (b.onInlines f).Fits p := by
  cases p with
  | item =>
    have hlength := length_onInlines b f
    rw [Between.inlines h, List.length_nil, List.length_eq_zero_iff] at hlength
    exact ⟨path_onInlines b f ▸ Between.path h, hlength⟩
  | text => exact holdsLiteral_onInlines h f
  | blocks | lines => cases hp

/-- Whether a change of inlines puts texts at the end. -/
def Appends (f : List Inline → List Inline) (ts : List Text) : Prop :=
  ∀ is, Inline.segmentTextsAll (f is) = Inline.segmentTextsAll is ++ ts

theorem appends_text (source t : Text) (span : Span) :
    Appends (appendText (sourceSegment source t span)) (nonEmpty? t).toList := by
  intro is
  rw [segmentTextsAll_appendText, sourceSegment, text_segment]

theorem appends_inline {i : Inline} {ts : List Text} (hi : i.segmentTexts = ts) : Appends (· ++ [i]) ts := by
  intro is
  rw [Inline.segmentTextsAll_append, Inline.segmentTextsAll_singleton, hi]

theorem appends_single (source t : Text) (span : Span) {i : Inline}
    (hi : i.segmentTexts = (Literal.single (sourceSegment source t span)).segmentTexts) :
    Appends (· ++ [i]) (nonEmpty? t).toList := by
  refine appends_inline (hi.trans ?_)
  rw [Literal.segmentTexts_single, sourceSegment, text_segment]

/-- Running text that one event reports leaves no trace, or it puts its text at the end of the inlines that it goes to,
by a change that depends on the source alone. -/
theorem event_inline (source : Text) {e : Event} (he : Place.text.takes e = true) (span : Span) :
    (e.shows = false ∧ e.texts = [] ∧ ∀ b : Builder, b.event span e = b) ∨
      e.shows = true ∧ ∃ f, Appends f e.texts ∧
        ∀ b : Builder, b.source = source → b.HoldsLiteral = false → b.event span e = b.onInlines f := by
  cases e with
  | start _ | stop _ | rule => cases he
  | text t | inlineMath t | displayMath t =>
    refine .inr ⟨rfl, appendText (sourceSegment source t span), appends_text source t span, fun b hb h => ?_⟩
    simp [event, text, pushLiteral?_eq_none h, segment_eq, hb]
  | html t =>
    refine .inr ⟨rfl, (· ++ [.rawHtml (.single (sourceSegment source t span))]), appends_single source t span rfl,
      fun b hb h => ?_⟩
    simp [event, pushInlines, pushLiteral?_eq_none h, segment_eq, hb]
  | code t =>
    refine .inr ⟨rfl, (· ++ [.code (.single (sourceSegment source t span))]), appends_single source t span rfl,
      fun b hb _ => ?_⟩
    rw [event, segment_eq, hb]
    rfl
  | inlineHtml t =>
    refine .inr ⟨rfl, (· ++ [.rawHtml (.single (sourceSegment source t span))]), appends_single source t span rfl,
      fun b hb _ => ?_⟩
    rw [event, segment_eq, hb]
    rfl
  | softBreak => exact .inr ⟨rfl, (· ++ [.softBreak]), appends_inline rfl, fun _ _ _ => rfl⟩
  | hardBreak => exact .inr ⟨rfl, (· ++ [.lineBreak]), appends_inline rfl, fun _ _ _ => rfl⟩
  | footnoteReference _ | taskListMarker _ => exact .inl ⟨rfl, rfl, fun _ => rfl⟩

theorem took_event_inline (hsound : b.Sound) (hfits : b.Fits p) (hp : p.hasText = true) {e : Event}
    (he : Place.text.takes e = true) (span : Span) :
    (b.event span e).Fits p ∧ b.Took e.texts (b.event span e) := by
  rcases event_inline b.source he span with ⟨-, htexts, hevent⟩ | ⟨-, f, hf, hevent⟩
  · rw [hevent, htexts]
    exact ⟨hfits, .refl b⟩
  · rw [hevent b rfl (hfits.holdsLiteral hsound hp)]
    exact ⟨hfits.onInlines hp f, path_onInlines b f, length_onInlines b f, texts_onInlines hsound.blocks_ne_nil hf⟩

/-- A code or HTML block has a literal that takes a segment. -/
theorem pushLiteral?_isSome (hsound : b.Sound) (h : b.HoldsLiteral = true) (s : Segment) :
    (b.pushLiteral? s).isSome = true := by
  obtain ⟨source, blocks, inlines, loose, starts⟩ := b
  rcases blocks with _ | ⟨⟨⟨kind, literal, children, inlines'⟩, start, implicit⟩, fs⟩
  · cases h
  · have hk : kind.isVerbatim = true := h
    have hfit := (Stacked.fit hsound).own
    rcases literal with _ | ⟨t⟩ | ⟨c⟩
    · simp [Block.isFit, hk] at hfit
    · simp [Block.isFit] at hfit
    · cases kind <;> simp_all [pushLiteral?, BlockKind.isVerbatim]

/-- A line goes to the end of the literal, beside which there is nothing. -/
theorem took_line (hsound : b.Sound) (hfits : b.Fits .lines) (t : Text) (span : Span) (b'' : Builder) :
    let b' := (b.pushLiteral? (b.segment t span)).getD b''
    b'.Fits .lines ∧ b.Took (nonEmpty? t).toList b' := by
  obtain ⟨b', hpush⟩ := Option.isSome_iff_exists.1 (pushLiteral?_isSome hsound hfits.1 (b.segment t span))
  obtain ⟨before, hbefore, hafter, hbesides⟩ := texts_pushLiteral? hpush
  obtain ⟨kind, c, children, inlines, start, implicit, fs, hblocks, hb'⟩ := exists_of_pushLiteral? hpush
  rw [hpush]
  refine ⟨⟨?_, hbesides.trans hfits.2⟩, ?_, ?_, ?_⟩
  · have hl := hfits.1
    simpa [HoldsLiteral, hblocks, hb'] using hl
  · cases implicit <;> simp [path, kinds, hblocks, hb']
  · simp [hb']
  · rw [Option.getD_some, hafter, hbefore, hbesides, hfits.2, text_segment, List.append_nil, List.append_nil]

theorem took_rule (hsound : b.Sound) (hfits : b.Fits p) (hp : p.hasBlocks = true) (span : Span) :
    (b.event span .rule).Fits p ∧ b.Took [] (b.event span .rule) := by
  have hinlines : (b.event span .rule).inlines = b.inlines := (inlines_attach _ _ _).trans b.inlines_closeImplicit
  have htook : b.Took [] (b.event span .rule) :=
    ⟨(path_attach _ _ _).trans (path_closeImplicit hsound), congrArg List.length hinlines, texts_rule hsound span⟩
  exact ⟨htook.fits hp hfits (hsound.reported_closeImplicit.attach _ _), htook⟩

/-- **An event that comes where it may puts its text at the end.** -/
theorem took_leaf (hsound : b.Sound) (hfits : b.Fits p) {e : Event} (he : p.takes e = true) (span : Span) :
    (b.event span e).Fits p ∧ b.Took e.texts (b.event span e) := by
  cases p with
  | blocks =>
    cases e with
    | rule => exact took_rule hsound hfits rfl span
    | _ => cases he
  | item =>
    cases e with
    | start _ | stop _ => cases he
    | rule => exact took_rule hsound hfits rfl span
    | _ => exact took_event_inline hsound hfits rfl rfl span
  | text => exact took_event_inline hsound hfits rfl he span
  | lines =>
    cases e with
    | text t | html t => exact took_line hsound hfits t span _
    | _ => cases he

/-! ## Constructs -/

theorem stop_bare (b : Builder) (tag : Tag) : b.stop tag.bare = b.stop tag := by
  cases tag <;> rfl

/-- An end closes whatever its tag says of the construct. -/
theorem stop_of_bare {tag tag' : Tag} (h : tag'.bare = tag.bare) (b : Builder) : b.stop tag' = b.stop tag := by
  rw [← stop_bare b tag', h, stop_bare]

/-- The start of a block closes the paragraph made for text and opens an empty block, in which may stand what may
stand in blocks of its kind. -/
theorem start_block (b : Builder) (span : Span) {tag : Tag} (htag : tag.content? = some q) :
    ∃ block loose, b.start span tag = openBlock { b.closeImplicit with loose } block span.start ∧
      block.kind.isContainer = q.hasBlocks ∧ block.kind.isVerbatim = decide (q = .lines) ∧ block.children = [] ∧
      block.inlines = [] := by
  cases tag with
  | paragraph =>
    cases htag
    by_cases hitem : b.closeImplicit.blocks.head?.any (·.block.kind = .listItem) = true
    · refine ⟨.ofKind .paragraph, b.closeImplicit.markLoose.loose, ?_, rfl, rfl, rfl, rfl⟩
      simp only [start, hitem, ite_true]
      unfold markLoose
      split <;> rfl
    · refine ⟨.ofKind .paragraph, b.closeImplicit.loose, ?_, rfl, rfl, rfl, rfl⟩
      simp only [start, hitem]
      rfl
  | heading level =>
    cases htag
    by_cases hatx : isAtxHeading (b.closeImplicit.sourceText span) = true
    · refine ⟨.ofKind (.atxHeader level.toNat), b.closeImplicit.loose, ?_, rfl, rfl, rfl, rfl⟩
      simp only [start, hatx, ite_true]
    · refine ⟨.ofKind (.setextHeader level.toNat), b.closeImplicit.loose, ?_, rfl, rfl, rfl, rfl⟩
      simp only [start, hatx]
      rfl
  | codeBlock info =>
    cases htag
    cases info <;> exact ⟨_, _, rfl, rfl, rfl, rfl, rfl⟩
  | blockQuote | htmlBlock | list _ | item =>
    cases htag
    exact ⟨_, _, rfl, rfl, rfl, rfl, rfl⟩
  | _ => cases htag

/-- In the block that has just been opened may come what may stand in it. -/
theorem fits_start_block (hsound : b.Sound) (hfits : b.Fits p) (hp : p.hasBlocks = true) (span : Span) {tag : Tag}
    (htag : tag.content? = some q) :
    (b.start span tag).Fits q ∧ (b.start span tag).inlines = [] ∧
      ∃ k, (b.start span tag).path = k :: b.path ∧ k.isContainer = q.hasBlocks := by
  obtain ⟨block, loose, hstart, hc, hv, hchildren, hinlines⟩ := start_block b span htag
  have hpath : (b.start span tag).path = block.kind :: b.path := by
    rw [hstart]
    exact congrArg (block.kind :: ·) (path_closeImplicit hsound)
  have hi : (b.start span tag).inlines = [] := by
    rw [hstart]
    exact b.inlines_closeImplicit.trans (hfits.between hp).inlines
  have hcontainers : q.hasBlocks = true → ∀ k ∈ (b.start span tag).path, k.isContainer = true := by
    intro hq k hk
    rw [hpath] at hk
    rcases List.mem_cons.1 hk with rfl | hk
    · exact hc.trans hq
    · exact (hfits.between hp).path k hk
  refine ⟨?_, hi, block.kind, hpath, hc⟩
  cases q with
  | blocks =>
    refine ⟨⟨hcontainers rfl, hi⟩, ?_⟩
    intro f fs hblocks
    rw [hstart] at hblocks
    cases hblocks
    rfl
  | item => exact ⟨hcontainers rfl, hi⟩
  | text =>
    rw [hstart]
    exact hv
  | lines =>
    refine ⟨?_, ?_⟩
    · rw [hstart]
      exact hv
    · rw [besides, inlineTexts, hi, hstart]
      simp [openBlock, hchildren, hinlines, Block.segmentTextsAll, Inline.segmentTextsAll]

theorem path_settleList (hr : b.Reported) {k : BlockKind} {ks : List BlockKind} (hpath : b.path = k :: ks) :
    ∃ k', b.settleList.path = k' :: ks := by
  obtain ⟨source, blocks, inlines, loose, starts⟩ := b
  unfold settleList
  simp only
  split
  · rename_i style tight literal children inlines' start implicit fs
    have himplicit : implicit = false := hr _ _ rfl
    refine ⟨.list style (!loose.headD false), ?_⟩
    have hks : k = .list style tight ∧ ks = kinds fs := by simpa [path, kinds, himplicit, eq_comm] using hpath
    simp [path, kinds, himplicit, hks.2]
  · exact ⟨k, hpath⟩

theorem Reported.settleList (hr : b.Reported) : b.settleList.Reported := by
  obtain ⟨source, blocks, inlines, loose, starts⟩ := b
  intro f fs hblocks
  unfold Builder.settleList at hblocks
  simp only at hblocks
  split at hblocks
  · rename_i start implicit gs
    have himplicit : implicit = false := hr _ _ rfl
    cases hblocks
    exact himplicit
  · exact hr f fs hblocks

/-- The end of a block closes the block that was reported last. The end of a quote does so only when no paragraph made
for text is open in it. -/
theorem stop_block {tag : Tag} {k : BlockKind} {ks : List BlockKind} (htag : tag.content? = some q) (hsound : b.Sound)
    (hquote : tag = .blockQuote → b.Reported) (hpath : b.path = k :: ks) (hk : k.isContainer = q.hasBlocks) :
    ∃ b' : Builder, b.stop tag = b'.closeBlock ∧ b'.Sound ∧ b'.Reported ∧ (∃ k', b'.path = k' :: ks) ∧
      b'.inlines = b.inlines ∧ b'.texts = b.texts := by
  have himplicit : b.closeImplicit.path = k :: ks := (path_closeImplicit hsound).trans hpath
  have hreported := hsound.reported_closeImplicit
  cases tag with
  | paragraph | heading _ | codeBlock _ | htmlBlock =>
    cases htag
    exact ⟨b, rfl, hsound, reported_of_path hsound hpath hk, ⟨k, hpath⟩, rfl, rfl⟩
  | blockQuote =>
    cases htag
    exact ⟨b, rfl, hsound, hquote rfl, ⟨k, hpath⟩, rfl, rfl⟩
  | item =>
    cases htag
    exact ⟨b.closeImplicit, rfl, hsound.closeImplicit, hreported, ⟨k, himplicit⟩, b.inlines_closeImplicit,
      texts_closeImplicit hsound⟩
  | list _ =>
    cases htag
    exact ⟨b.closeImplicit.settleList, rfl, hsound.closeImplicit.settleList, hreported.settleList,
      path_settleList hreported himplicit, b.inlines_closeImplicit,
      (texts_settleList _).trans (texts_closeImplicit hsound)⟩
  | _ => cases htag

/-- Closing a block that was reported leaves those around it, which were reported too. -/
theorem path_closeBlock_of_reported {k : BlockKind} {ks : List BlockKind} (hsound : b.Sound) (hr : b.Reported)
    (hpath : b.path = k :: ks) (hne : ks ≠ []) :
    b.closeBlock.path = ks ∧ b.closeBlock.Reported ∧ ∃ f g fs, b.blocks = f :: g :: fs ∧ kinds (g :: fs) = ks := by
  rcases hblocks : b.blocks with _ | ⟨f, _ | ⟨g, fs⟩⟩
  · exact absurd hblocks hsound.blocks_ne_nil
  · rw [path, hblocks, kinds_cons_of_reported (hr f [] hblocks), List.cons.injEq] at hpath
    exact absurd hpath.2.symm hne
  · rw [path, hblocks, kinds_cons_of_reported (hr f _ hblocks), List.cons.injEq] at hpath
    exact ⟨(path_closeBlock hblocks).trans hpath.2, hsound.reported_closeBlock (by simp [hblocks]), f, g, fs, rfl,
      hpath.2⟩

/-- When the blocks around are containers, closing the innermost one leaves them and all texts. -/
theorem closeBlock_of_path {k : BlockKind} {ks : List BlockKind} (hsound : b.Sound) (hr : b.Reported)
    (hpath : b.path = k :: ks) (hne : ks ≠ []) (hks : ∀ k' ∈ ks, k'.isContainer = true) :
    b.closeBlock.path = ks ∧ b.closeBlock.Reported ∧ b.closeBlock.texts = b.texts := by
  obtain ⟨hclosed, hreported, f, g, fs, hblocks, hkinds⟩ := path_closeBlock_of_reported hsound hr hpath hne
  have hstacked : Stacked (f :: g :: fs) := hblocks ▸ hsound
  have hg : g.block.kind.isContainer = true := by
    refine hks _ ?_
    rw [← hkinds, kinds_tail hstacked]
    exact List.mem_cons_self
  exact ⟨hclosed, hreported, texts_closeBlock_of_isContainer hsound hblocks hg⟩

variable {ts : List Text}

/-- A block takes the texts of what stands in it. -/
theorem took_block (hsound : b.Sound) (hfits : b.Fits p) (hp : p.hasBlocks = true) (span : Span) {tag : Tag}
    (htag : tag.content? = some q) (hsound' : b'.Sound) (hfits' : b'.Fits q) (htook : (b.start span tag).Took ts b') :
    (b'.stop tag).Fits p ∧ b.Took ts (b'.stop tag) := by
  obtain ⟨hopened, hi, k, hpath, hk⟩ := fits_start_block hsound hfits hp span htag
  have hquote : tag = .blockQuote → b'.Reported := by
    rintro rfl
    cases htag
    exact hfits'.2
  obtain ⟨closing, hstop, hsound'', hr, ⟨k', hpath'⟩, hinlines, htexts⟩ :=
    stop_block htag hsound' hquote (htook.path.trans hpath) hk
  obtain ⟨hclosedPath, hclosedReported, hclosedTexts⟩ :=
    closeBlock_of_path hsound'' hr hpath' (path_ne_nil hsound) (hfits.between hp).path
  have hdone : b.Took ts closing.closeBlock := by
    refine ⟨hclosedPath, ?_, ?_⟩
    · rw [inlines_closeBlock, hinlines, htook.inlines, hi, (hfits.between hp).inlines]
    · rw [hclosedTexts, htexts, htook.texts, texts_start hsound]
  rw [hstop]
  exact ⟨hdone.fits hp hfits hclosedReported, hdone⟩

theorem start_markup {tag : Tag} (h : tag.isMarkup = true) :
    ∃ w, ∀ (b : Builder) (span : Span), b.start span tag = b.openInline w := by
  cases tag with
  | emphasis | strong | strikethrough | superscript | subscript | link _ _ | image _ _ => exact ⟨_, fun _ _ => rfl⟩
  | _ => cases h

theorem stop_markup (b : Builder) {tag : Tag} (h : tag.isMarkup = true) : b.stop tag = b.closeInline := by
  cases tag with
  | emphasis | strong | strikethrough | superscript | subscript | link _ _ | image _ _ => rfl
  | _ => cases h

/-- So does markup. -/
theorem took_markup (hsound : b.Sound) (hfits : b.Fits p) (hp : p.hasText = true) (span : Span) {tag : Tag}
    (htag : tag.isMarkup = true) (hsound' : b'.Sound) (hfits' : b'.Fits .text)
    (htook : (b.start span tag).Took ts b') : (b'.stop tag).Fits p ∧ b.Took ts (b'.stop tag) := by
  obtain ⟨w, hstart⟩ := start_markup htag
  rw [stop_markup b' htag]
  have hpath : b'.closeInline.path = b.path := by
    rw [path_closeInline, htook.path, hstart]
    rfl
  have hlength : b'.closeInline.inlines.length = b.inlines.length := by
    rw [length_closeInline, htook.inlines, hstart]
    rfl
  have htexts : b'.closeInline.texts = b.texts ++ ts := by
    rw [texts_closeInline hsound'.blocks_ne_nil, htook.texts, texts_start hsound]
  have hdone : b.Took ts b'.closeInline := ⟨hpath, hlength, htexts⟩
  refine ⟨?_, hdone⟩
  cases p with
  | item => exact hdone.between hfits
  | text =>
    obtain ⟨source, blocks, inlines, loose, starts⟩ := b'
    cases inlines with
    | nil => exact hfits'
    | cons i is => exact holdsLiteral_onInlines (b := ⟨source, blocks, is, loose, starts⟩) hfits' _
  | blocks | lines => cases hp

theorem start_other (b : Builder) (span : Span) {tag : Tag} (htag : tag.content? = none) (h : tag.isMarkup = false) :
    b.start span tag = b := by
  cases tag with
  | paragraph | heading _ | blockQuote | codeBlock _ | htmlBlock | list _ | item => cases htag
  | emphasis | strong | strikethrough | superscript | subscript | link _ _ | image _ _ => cases h
  | _ => rfl

theorem stop_other (b : Builder) {tag : Tag} (htag : tag.content? = none) (h : tag.isMarkup = false) :
    b.stop tag = b := by
  cases tag with
  | paragraph | heading _ | blockQuote | codeBlock _ | htmlBlock | list _ | item => cases htag
  | emphasis | strong | strikethrough | superscript | subscript | link _ _ | image _ _ => cases h
  | _ => rfl

/-! ## Streams -/

theorem events_node (b : Builder) (tag tag' : Tag) (opening closing : Span) (content es : List (Event × Span)) :
    b.events ((.start tag, opening) :: (content ++ (.stop tag', closing) :: es)) =
      (((b.start opening tag).events content).stop tag').events es := by
  rw [events_cons, events_append, events_cons]
  rfl

theorem textsOfAll_node (tag tag' : Tag) (opening closing : Span) (content es : List (Event × Span)) :
    Event.textsOfAll ((.start tag, opening) :: (content ++ (.stop tag', closing) :: es)) =
      Event.textsOfAll content ++ Event.textsOfAll es := by
  simp [Event.textsOfAll, Event.texts]

/-- **A well nested stream leaves open what was open and puts its texts at the end, in their order.** -/
theorem took_of_wellNested {es : List (Event × Span)} (h : WellNested p es) (hsound : b.Sound) (hfits : b.Fits p) :
    (b.events es).Fits p ∧ b.Took (Event.textsOfAll es) (b.events es) := by
  -- the content of a construct is a stream of its own, taken where the start leaves the builder
  induction h generalizing b with
  | nil p => exact ⟨hfits, .refl b⟩
  | leaf span he hes ih =>
    obtain ⟨hfits', htook⟩ := took_leaf hsound hfits he span
    obtain ⟨hfits'', htook'⟩ := ih (hsound.event span _) hfits'
    exact ⟨hfits'', htook.trans htook'⟩
  | @block p q tag tag' opening closing content es hp hq htag hcontent hes ihcontent ih =>
    have hstart := hsound.start opening tag
    obtain ⟨hinner, htook⟩ := ihcontent hstart (fits_start_block hsound hfits hp opening hq).1
    obtain ⟨hfits', htook'⟩ := took_block hsound hfits hp opening hq (hstart.events content) hinner htook
    obtain ⟨hfits'', htook''⟩ := ih ((hstart.events content).stop tag) hfits'
    rw [events_node, textsOfAll_node, stop_of_bare htag]
    exact ⟨hfits'', htook'.trans htook''⟩
  | @markup p tag tag' opening closing content es hp hmarkup htag hcontent hes ihcontent ih =>
    have hstart := hsound.start opening tag
    have hopened : (b.start opening tag).HoldsLiteral = false := by
      obtain ⟨w, hw⟩ := start_markup hmarkup
      rw [hw]
      exact hfits.holdsLiteral hsound hp
    obtain ⟨hinner, htook⟩ := ihcontent hstart hopened
    obtain ⟨hfits', htook'⟩ := took_markup hsound hfits hp opening hmarkup (hstart.events content) hinner htook
    obtain ⟨hfits'', htook''⟩ := ih ((hstart.events content).stop tag) hfits'
    rw [events_node, textsOfAll_node, stop_of_bare htag]
    exact ⟨hfits'', htook'.trans htook''⟩
  | @other p tag tag' opening closing content es hp hq hmarkup htag hcontent hes ihcontent ih =>
    obtain ⟨hfits', htook⟩ := ihcontent hsound hfits
    obtain ⟨hfits'', htook'⟩ := ih (hsound.events content) hfits'
    rw [events_node, textsOfAll_node, stop_of_bare htag, start_other b opening hq hmarkup, stop_other _ hq hmarkup]
    exact ⟨hfits'', htook.trans htook'⟩

theorem fits_new (source : Text) : (new source).Fits .blocks := by
  refine ⟨⟨fun k hk => ?_, rfl⟩, ?_⟩
  · cases List.mem_singleton.1 hk
    rfl
  · intro f fs hblocks
    cases hblocks
    rfl

/-- When the document alone is open, there is nothing to close. -/
theorem closeAll_of_fits (hsound : b.Sound) (hfits : b.Fits .blocks) (hpath : b.path.length = 1) :
    b.closeAll = b := by
  have hlength : b.blocks.length - 1 = 0 := by
    obtain ⟨source, blocks, inlines, loose, starts⟩ := b
    rcases blocks with _ | ⟨f, _ | ⟨g, fs⟩⟩
    · rfl
    · rfl
    · rw [path, kinds_cons_of_reported (hfits.2 f _ rfl), kinds_tail hsound] at hpath
      simp at hpath
  rw [closeAll, hfits.1.inlines]
  simp only [List.length_nil, Nat.repeat, hlength]

/-- A well nested stream gives a document with the texts of the stream in their order. -/
theorem segmentTexts_of_wellNested (source : Text) {es : List (Event × Span)} (ds : List (Nat × Text))
    (h : WellNested .blocks es) : (Block.ofEvents source es ds).segmentTexts = Event.textsOfAll es := by
  have hsound : ((new source).events es).Sound := (sound_new source).events es
  have hcounted : ((new source).events es).Counted := (counted_new source).events es
  obtain ⟨hfits, htook⟩ := took_of_wellNested h (sound_new source) (fits_new source)
  have hpath : ((new source).events es).path.length = 1 := congrArg List.length htook.path
  rw [Block.ofEvents, segmentTexts_finish hcounted, closeAll_of_fits hsound hfits hpath, htook.texts]
  rfl

end Builder

/-- **The document has each text of its events just once**, whatever the events are and in whatever order they come,
and has them in the order of the events when the stream is well nested. -/
theorem segmentTexts_ofEvents (source : Text) (es : List (Event × Span)) (ds : List (Nat × Text)) :
    (Block.ofEvents source es ds).segmentTexts.Perm (Event.textsOfAll es) ∧
      (WellNested .blocks es → (Block.ofEvents source es ds).segmentTexts = Event.textsOfAll es) :=
  ⟨Builder.perm_segmentTexts_ofEvents source es ds, Builder.segmentTexts_of_wellNested source ds⟩

/-- A list in a quote, running text around a rule in its item, and a code block after it. -/
theorem segmentTexts_ofEvents_nestedSample :
    let span : Span := ⟨0, 0⟩
    let ends : Ends := ⟨span, span⟩
    let es := BlockNode.eventsOfAll [
      .quote ends [.list (some 1) ends [.mk ends [.inline (.leaf (.text ['a']) span), .block (.rule span),
        .inline (.marked .strikethrough ends [.leaf (.code ['b']) span, .leaf (.text []) span])]]],
      .code none ends [(['c'], span), (['d'], span)]]
    WellNested .blocks es ∧ (Block.ofEvents ['a'] es [(0, ['l'])]).segmentTexts = [['a'], ['b'], ['c'], ['d']] :=
  ⟨BlockNode.wellNested_eventsOfAll _, (segmentTexts_ofEvents _ _ _).2 (BlockNode.wellNested_eventsOfAll _)⟩

end CommonMark
