import CommonMark.Proofs.Closing
import CommonMark.Proofs.Segments

/-!
# Text is kept

No builder loses text or has any twice. `Block.segmentTexts` reads off the texts of a tree's segments in the order of
the document, `Event.texts` the text that an event carries, unless it is empty. While events come in, the texts of all
that is open are those of the events so far in some order (`perm_texts_events`). Most steps put their text at the end;
only a text for a literal (`texts_pushLiteral?`) and a block that closes (`texts_closeBlock`) can come to stand before
what the blocks around hold already. Closing what is left open and placing definitions keep the texts too, so the
finished document has those of the events (`perm_segmentTexts_ofEvents`).
-/

namespace CommonMark

/-- The text that an event carries, unless it is empty. -/
def Event.texts : Event → List Text
  | text t | code t | html t | inlineHtml t | inlineMath t | displayMath t => (nonEmpty? t).toList
  | _ => []

/-- The texts that events carry, in order. -/
def Event.textsOfAll (es : List (Event × Span)) : List Text := es.flatMap (·.1.texts)

namespace Literal

/-- The texts of the segments of a literal. -/
def segmentTexts (l : Literal) : List Text := l.chunks.map (·.text)

/-- A segment joins a literal unless it shows nothing. -/
theorem segmentTexts_push (c : Content) (s : Segment) :
    (segmented (c.push s)).segmentTexts = (segmented c).segmentTexts ++ (nonEmpty? s.text).toList := by
  have hbytes := s.bytes_text
  by_cases hs : s.text = []
  · have hlength : s.length = 0 := by rw [← hbytes, hs, Text.bytes]
    simp [segmentTexts, chunks, Content.push, Segment.isEmpty, nonEmpty?, hs, hlength]
  · have hlength : s.length ≠ 0 := by
      rw [← hbytes]
      exact fun h => hs (Text.bytes_eq_zero.1 h)
    simp [segmentTexts, chunks, Content.push, Segment.isEmpty, nonEmpty?, hs, hlength]

theorem segmentTexts_single (s : Segment) : (single s).segmentTexts = (nonEmpty? s.text).toList :=
  segmentTexts_push {} s

end Literal

namespace Inline

mutual

/-- The texts of all segments of an inline, in order. -/
def segmentTexts : Inline → List Text
  | text literal | code literal | rawHtml literal | entity literal => literal.segmentTexts
  | lineBreak | softBreak => []
  | link _ label | image _ label => segmentTextsAll label
  | strong cs | emphasis cs => segmentTextsAll cs

/-- The texts of all segments of several inlines, in order. -/
def segmentTextsAll : List Inline → List Text
  | [] => []
  | i :: is => segmentTexts i ++ segmentTextsAll is

end

theorem segmentTextsAll_append (is js : List Inline) :
    segmentTextsAll (is ++ js) = segmentTextsAll is ++ segmentTextsAll js := by
  induction is with
  | nil => rfl
  | cons i is ih => rw [List.cons_append, segmentTextsAll, ih, segmentTextsAll, List.append_assoc]

theorem segmentTextsAll_singleton (i : Inline) : segmentTextsAll [i] = segmentTexts i := List.append_nil _

end Inline

/-- A piece of text comes last, on its own or joined to the text before it. -/
theorem segmentTextsAll_appendText (s : Segment) (is : List Inline) :
    Inline.segmentTextsAll (appendText s is) = Inline.segmentTextsAll is ++ (nonEmpty? s.text).toList := by
  fun_induction appendText s is with
  | case1 =>
    rw [Inline.segmentTextsAll_singleton]
    exact Literal.segmentTexts_single s
  | case2 c =>
    rw [Inline.segmentTextsAll_singleton, Inline.segmentTextsAll_singleton]
    exact Literal.segmentTexts_push c s
  | case3 i is hlast ih => rw [Inline.segmentTextsAll, ih, Inline.segmentTextsAll, List.append_assoc]

/-- Markup has the texts of what it marks. -/
theorem Wrapper.segmentTextsAll_close (cs : List Inline) (w : Wrapper) :
    Inline.segmentTextsAll (w.close cs) = Inline.segmentTextsAll cs := by
  cases w with
  | dissolved => rfl
  | emphasis | strong | link target | image target => exact Inline.segmentTextsAll_singleton _

namespace Block

mutual

/-- The texts of all segments of a block and the blocks below it, in order. -/
def segmentTexts : Block → List Text
  | ⟨_, literal, children, inlines⟩ =>
    literal.toList.flatMap (·.segmentTexts) ++ segmentTextsAll children ++ Inline.segmentTextsAll inlines

/-- The texts of all segments of several blocks, in order. -/
def segmentTextsAll : List Block → List Text
  | [] => []
  | b :: bs => segmentTexts b ++ segmentTextsAll bs

end

theorem segmentTextsAll_append (bs cs : List Block) :
    segmentTextsAll (bs ++ cs) = segmentTextsAll bs ++ segmentTextsAll cs := by
  induction bs with
  | nil => rfl
  | cons b bs ih => rw [List.cons_append, segmentTextsAll, ih, segmentTextsAll, List.append_assoc]

theorem segmentTexts_ofKind (kind : BlockKind) : (ofKind kind).segmentTexts = [] := rfl

end Block

namespace Builder

/-- The texts of the inlines that are open, the outermost first. -/
def inlineTexts (b : Builder) : List Text := b.inlines.reverse.flatMap fun i => Inline.segmentTextsAll i.children

/-- The texts of all that is open, the outermost first. -/
def texts (b : Builder) : List Text := b.blocks.reverse.flatMap (·.block.segmentTexts) ++ b.inlineTexts

/-- The texts that stand after a literal of the innermost block. -/
def besides (b : Builder) : List Text :=
  (b.blocks.head?.map fun f =>
    Block.segmentTextsAll f.block.children ++ Inline.segmentTextsAll f.block.inlines).getD [] ++ b.inlineTexts

/-! ## Steps that put text at the end -/

theorem texts_onInlines {b : Builder} (h : b.blocks ≠ []) {f : List Inline → List Inline} {ts : List Text}
    (hf : ∀ is, Inline.segmentTextsAll (f is) = Inline.segmentTextsAll is ++ ts) :
    (b.onInlines f).texts = b.texts ++ ts := by
  obtain ⟨source, blocks, inlines, loose, starts⟩ := b
  rcases inlines with _ | ⟨i, is⟩
  · obtain ⟨⟨⟨kind, literal, children, inlines⟩, start, implicit⟩, fs, rfl⟩ := List.exists_cons_of_ne_nil h
    by_cases hc : kind.isContainer = true
    · have hparagraph : Block.segmentTexts { kind := .paragraph, inlines := f [] } = ts := by
        simp [Block.segmentTexts, Block.segmentTextsAll, hf, Inline.segmentTextsAll]
      simp [texts, inlineTexts, onInlines, hc, hparagraph]
    · simp [texts, inlineTexts, onInlines, hc, Block.segmentTexts, hf]
  · simp [texts, inlineTexts, onInlines, hf]

theorem texts_pushInlines {b : Builder} (h : b.blocks ≠ []) (is : List Inline) :
    (b.pushInlines is).texts = b.texts ++ Inline.segmentTextsAll is :=
  texts_onInlines h fun _ => Inline.segmentTextsAll_append _ _

theorem texts_openBlock (b : Builder) {block : Block} (h : block.segmentTexts = []) (start : Nat) :
    (b.openBlock block start).texts = b.texts := by
  simp [texts, inlineTexts, openBlock, h]

theorem texts_openInline (b : Builder) (w : Wrapper) : (b.openInline w).texts = b.texts := by
  simp [texts, inlineTexts, openInline, Inline.segmentTextsAll]

theorem texts_closeInline {b : Builder} (h : b.blocks ≠ []) : b.closeInline.texts = b.texts := by
  obtain ⟨source, blocks, inlines, loose, starts⟩ := b
  cases inlines with
  | nil => rfl
  | cons i is =>
    have hpushed := texts_pushInlines (b := ⟨source, blocks, is, loose, starts⟩) h (i.wrapper.close i.children)
    rw [Wrapper.segmentTextsAll_close] at hpushed
    refine hpushed.trans ?_
    simp [texts, inlineTexts]

theorem texts_markLoose (b : Builder) : b.markLoose.texts = b.texts := by
  obtain ⟨source, blocks, inlines, loose, starts⟩ := b
  cases loose <;> rfl

theorem texts_settleList (b : Builder) : b.settleList.texts = b.texts := by
  obtain ⟨source, blocks, inlines, loose, starts⟩ := b
  unfold settleList
  simp only
  split
  · simp [texts, inlineTexts, Block.segmentTexts]
  · rfl

theorem texts_attach (b : Builder) {block : Block} (h : block.segmentTexts = []) (start : Nat) :
    (b.attach block start).texts = b.texts := by
  obtain ⟨source, blocks, inlines, loose, starts⟩ := b
  rcases blocks with _ | ⟨⟨⟨kind, literal, children, inlines'⟩, start', implicit⟩, fs⟩
  · rfl
  · simp [texts, inlineTexts, attach, Block.segmentTexts, Block.segmentTextsAll_append, Block.segmentTextsAll, h]

/-! ## Steps that can put text before other text -/

/-- A literal takes a segment just when it is the one of a code or HTML block. -/
theorem exists_of_pushLiteral? {b b' : Builder} {s : Segment} (h : b.pushLiteral? s = some b') :
    ∃ kind c children inlines start implicit fs,
      b.blocks = ⟨⟨kind, some (.segmented c), children, inlines⟩, start, implicit⟩ :: fs ∧
        b' = { b with blocks := ⟨⟨kind, some (.segmented (c.push s)), children, inlines⟩, start, implicit⟩ :: fs } := by
  obtain ⟨source, blocks, inlines, loose, starts⟩ := b
  unfold pushLiteral? at h
  split at h
  · rename_i kind c children inlines' start implicit fs hblocks
    refine ⟨kind, c, children, inlines', start, implicit, fs, hblocks, ?_⟩
    split at h
    · exact (Option.some.inj h).symm
    · exact (Option.some.inj h).symm
    · exact (Option.some.inj h).symm
    · cases h
  · cases h

/-- What a literal takes comes before what else the block holds. -/
theorem texts_pushLiteral? {b b' : Builder} {s : Segment} (h : b.pushLiteral? s = some b') :
    ∃ before, b.texts = before ++ b.besides ∧ b'.texts = before ++ (nonEmpty? s.text).toList ++ b'.besides ∧
      b'.besides = b.besides := by
  obtain ⟨kind, c, children, inlines, start, implicit, fs, hblocks, rfl⟩ := exists_of_pushLiteral? h
  refine ⟨fs.reverse.flatMap (·.block.segmentTexts) ++ (Literal.segmented c).segmentTexts, ?_, ?_, ?_⟩
  · simp [texts, besides, hblocks, Block.segmentTexts]
  · simp [texts, besides, Block.segmentTexts, Literal.segmentTexts_push, inlineTexts]
  · simp [besides, hblocks, inlineTexts]

/-- A block that closes comes before the inlines of the block around it. -/
theorem texts_closeBlock {b : Builder} {f g : Frame} {fs : List Frame} (h : b.blocks = f :: g :: fs) :
    ∃ before after, b.texts = before ++ (Inline.segmentTextsAll g.block.inlines ++ f.block.segmentTexts) ++ after ∧
      b.closeBlock.texts = before ++ (f.block.segmentTexts ++ Inline.segmentTextsAll g.block.inlines) ++ after := by
  obtain ⟨source, blocks, inlines, loose, starts⟩ := b
  obtain ⟨⟨kind, literal, children, inlines'⟩, start, implicit⟩ := g
  simp only at h
  subst h
  refine ⟨fs.reverse.flatMap (·.block.segmentTexts) ++
    (literal.toList.flatMap (·.segmentTexts) ++ Block.segmentTextsAll children),
    inlines.reverse.flatMap fun i => Inline.segmentTextsAll i.children, ?_, ?_⟩
  · simp [texts, inlineTexts, Block.segmentTexts]
  · simp [texts, inlineTexts, closeBlock, attach, Block.segmentTexts, Block.segmentTextsAll_append,
      Block.segmentTextsAll]

theorem perm_texts_closeBlock (b : Builder) : b.closeBlock.texts.Perm b.texts := by
  rcases hblocks : b.blocks with _ | ⟨f, _ | ⟨g, fs⟩⟩
  · simp [closeBlock, hblocks]
  · simp [closeBlock, hblocks]
  · obtain ⟨before, after, hbefore, hafter⟩ := texts_closeBlock hblocks
    rw [hbefore, hafter]
    exact (List.perm_append_comm.append_left before).append_right after

/-- In a container nothing stands after the blocks. -/
theorem texts_closeBlock_of_isContainer {b : Builder} (h : b.Sound) {f g : Frame} {fs : List Frame}
    (hblocks : b.blocks = f :: g :: fs) (hg : g.block.kind.isContainer = true) : b.closeBlock.texts = b.texts := by
  obtain ⟨before, after, hbefore, hafter⟩ := texts_closeBlock hblocks
  have hinlines : g.block.inlines = [] := (Stacked.fit_of_mem h g (by simp [hblocks])).bare hg
  rw [hbefore, hafter, hinlines, Inline.segmentTextsAll, List.nil_append, List.append_nil]

theorem texts_closeImplicit {b : Builder} (h : b.Sound) : b.closeImplicit.texts = b.texts := by
  rcases h.closeImplicit_cases with ⟨-, hclose⟩ | ⟨f, g, fs, hblocks, -, hg, hclose⟩
  · rw [hclose]
  · rw [hclose, texts_closeBlock_of_isContainer h hblocks hg]

/-! ## Events -/

section

variable {b : Builder}

/-- Opening a block first closes the paragraph made for text. -/
theorem texts_openBlock_closeImplicit (h : b.Sound) {block : Block} (hb : block.segmentTexts = []) (start : Nat) :
    (b.closeImplicit.openBlock block start).texts = b.texts :=
  (texts_openBlock _ hb start).trans (texts_closeImplicit h)

theorem texts_start (h : b.Sound) (span : Span) (tag : Tag) : (b.start span tag).texts = b.texts := by
  cases tag with
  | paragraph =>
    simp only [start]
    split
    · rw [texts_openBlock _ rfl, texts_markLoose, texts_closeImplicit h]
    · exact texts_openBlock_closeImplicit h rfl _
  | heading level => exact texts_openBlock_closeImplicit h (Block.segmentTexts_ofKind _) _
  | codeBlock info => cases info <;> exact texts_openBlock_closeImplicit h rfl _
  | blockQuote | htmlBlock | item => exact texts_openBlock_closeImplicit h rfl _
  | list first =>
    have hopened := texts_openBlock { b.closeImplicit with loose := false :: b.closeImplicit.loose }
      (Block.segmentTexts_ofKind (.list (listStyle (b.closeImplicit.sourceText span) first) true)) span.start
    exact hopened.trans (texts_closeImplicit h)
  | emphasis | strong | link _ _ | image _ _ | strikethrough | superscript | subscript => exact b.texts_openInline _
  | _ => rfl

theorem perm_texts_stop (h : b.Sound) (tag : Tag) : (b.stop tag).texts.Perm b.texts := by
  cases tag with
  | paragraph | heading _ | blockQuote | codeBlock _ | htmlBlock => exact b.perm_texts_closeBlock
  | item => exact b.closeImplicit.perm_texts_closeBlock.trans (.of_eq (texts_closeImplicit h))
  | list first =>
    have hclosed := b.closeImplicit.settleList.perm_texts_closeBlock
    rw [texts_settleList, texts_closeImplicit h] at hclosed
    exact hclosed
  | emphasis | strong | link _ _ | image _ _ | strikethrough | superscript | subscript =>
    exact .of_eq (texts_closeInline h.blocks_ne_nil)
  | _ => exact .refl _

/-- Text that no literal takes comes at the end. -/
theorem texts_appendText (h : b.blocks ≠ []) (t : Text) (span : Span) :
    (b.onInlines (appendText (b.segment t span))).texts = b.texts ++ (nonEmpty? t).toList := by
  have happended := texts_onInlines h (segmentTextsAll_appendText (b.segment t span))
  rwa [text_segment] at happended

/-- So does an inline of one segment. -/
theorem texts_pushSingle (h : b.blocks ≠ []) (t : Text) (span : Span) {i : Inline}
    (hi : i.segmentTexts = (Literal.single (b.segment t span)).segmentTexts) :
    (b.pushInlines [i]).texts = b.texts ++ (nonEmpty? t).toList := by
  rw [texts_pushInlines h, Inline.segmentTextsAll_singleton, hi, Literal.segmentTexts_single, text_segment]

/-- A break has no text. -/
theorem texts_pushBreak (h : b.blocks ≠ []) {i : Inline} (hi : i.segmentTexts = []) :
    (b.pushInlines [i]).texts = b.texts ++ [] := by
  rw [texts_pushInlines h, Inline.segmentTextsAll_singleton, hi]

theorem texts_rule (h : b.Sound) (span : Span) : (b.event span .rule).texts = b.texts ++ [] := by
  rw [List.append_nil, ← texts_closeImplicit h]
  exact b.closeImplicit.texts_attach (Block.segmentTexts_ofKind .horizontalRuler) span.start

/-- Text goes into a literal, else to the end. -/
theorem perm_texts_getD {b' : Builder} {t : Text} {span : Span} (h' : b'.texts = b.texts ++ (nonEmpty? t).toList) :
    ((b.pushLiteral? (b.segment t span)).getD b').texts.Perm (b.texts ++ (nonEmpty? t).toList) := by
  cases hpush : b.pushLiteral? (b.segment t span) with
  | none => rw [Option.getD_none, h']
  | some pushed =>
    obtain ⟨before, hbefore, hafter, hbesides⟩ := texts_pushLiteral? hpush
    rw [Option.getD_some, hafter, hbefore, hbesides, text_segment, List.append_assoc, List.append_assoc]
    exact List.perm_append_comm.append_left before

/-- **Each event adds the text that it carries**, whatever is open. -/
theorem perm_texts_event (h : b.Sound) (span : Span) (e : Event) :
    (b.event span e).texts.Perm (b.texts ++ e.texts) := by
  have hne := h.blocks_ne_nil
  cases e with
  | start tag => exact .of_eq ((texts_start h span tag).trans (List.append_nil _).symm)
  | stop tag => exact (perm_texts_stop h tag).trans (.of_eq (List.append_nil _).symm)
  | text t | inlineMath t | displayMath t => exact perm_texts_getD (texts_appendText hne t span)
  | html t => exact perm_texts_getD (texts_pushSingle hne t span rfl)
  | code t | inlineHtml t => exact .of_eq (texts_pushSingle hne t span rfl)
  | softBreak | hardBreak => exact .of_eq (texts_pushBreak hne rfl)
  | rule => exact .of_eq (texts_rule h span)
  | footnoteReference _ | taskListMarker _ => exact .of_eq (List.append_nil _).symm

theorem perm_texts_events (h : b.Sound) (es : List (Event × Span)) :
    (b.events es).texts.Perm (b.texts ++ Event.textsOfAll es) := by
  induction es generalizing b with
  | nil => exact .of_eq (List.append_nil _).symm
  | cons e es ih =>
    have hrest := ih (h.event e.2 e.1)
    have hfirst := (perm_texts_event h e.2 e.1).append_right (Event.textsOfAll es)
    rw [List.append_assoc] at hfirst
    exact hrest.trans hfirst

/-! ## The finished document -/

theorem perm_texts_closeAll (h : b.Sound) : b.closeAll.texts.Perm b.texts := by
  have hinlines : ∀ b' : Builder, b'.Sound ∧ b'.texts.Perm b.texts →
      b'.closeInline.Sound ∧ b'.closeInline.texts.Perm b.texts := fun b' hb' =>
    ⟨hb'.1.closeInline, (List.Perm.of_eq (texts_closeInline hb'.1.blocks_ne_nil)).trans hb'.2⟩
  have hblocks : ∀ b' : Builder, b'.texts.Perm b.texts → b'.closeBlock.texts.Perm b.texts := fun b' hb' =>
    b'.perm_texts_closeBlock.trans hb'
  exact iterate (P := fun b' => b'.texts.Perm b.texts) hblocks
    (iterate (P := fun b' => b'.Sound ∧ b'.texts.Perm b.texts) hinlines ⟨h, .refl _⟩ _).2 _

theorem inlines_closeInlines (b : Builder) : b.closeInlines.inlines = [] := by
  fun_induction closeInlines b with
  | case1 b hlength => exact List.length_eq_zero_iff.1 hlength
  | case2 b hlength ih => exact ih

theorem inlines_closeBlock (b : Builder) : b.closeBlock.inlines = b.inlines := by
  obtain ⟨source, blocks, inlines, loose, starts⟩ := b
  rcases blocks with _ | ⟨f, _ | ⟨g, fs⟩⟩ <;> rfl

theorem inlines_closeAll (b : Builder) : b.closeAll.inlines = [] := by
  have hclosed : (b.inlines.length.repeat closeInline b).inlines = [] := by
    rw [repeat_closeInline _ rfl]
    exact b.inlines_closeInlines
  exact iterate (P := fun b' => b'.inlines = []) (fun b' hb' => (inlines_closeBlock b').trans hb') hclosed _

/-- When nothing but the document is open, what is open has the texts of the document. -/
theorem segmentTexts_root (hlength : b.blocks.length ≤ 1) (hi : b.inlines = []) : b.root.segmentTexts = b.texts := by
  obtain ⟨source, blocks, inlines, loose, starts⟩ := b
  simp only at hi
  subst hi
  rcases blocks with _ | ⟨f, _ | ⟨g, fs⟩⟩
  · rfl
  · simp [root, texts, inlineTexts]
  · simp at hlength

end

end Builder

/-- Definitions show nothing. -/
theorem segmentTextsAll_definitions (ds : List (Nat × Text)) :
    Block.segmentTextsAll (ds.map fun d => .definition d.2) = [] := by
  induction ds with
  | nil => rfl
  | cons d ds ih => exact ih

theorem segmentTextsAll_placeDefinitions (bs : List (Block × Nat)) (ds : List (Nat × Text)) :
    Block.segmentTextsAll (placeDefinitions bs ds) = Block.segmentTextsAll (bs.map Prod.fst) := by
  induction bs generalizing ds with
  | nil => exact segmentTextsAll_definitions ds
  | cons b bs ih =>
    obtain ⟨block, start⟩ := b
    rw [placeDefinitions, Block.segmentTextsAll_append, segmentTextsAll_definitions, Block.segmentTextsAll, ih]
    rfl

namespace Builder

/-- The finished document has the texts of what all is closed to. -/
theorem segmentTexts_finish {b : Builder} (h : b.Counted) (ds : List (Nat × Text)) :
    (b.finish ds).segmentTexts = b.closeAll.texts := by
  have hzip := segmentTextsAll_placeDefinitions (b.closeAll.root.children.zip b.closeAll.starts) ds
  rw [List.map_fst_zip (Nat.le_of_eq h.root_closeAll)] at hzip
  have hfinish : b.finish ds = if ds.isEmpty then b.closeAll.root else
      { b.closeAll.root with children := placeDefinitions (b.closeAll.root.children.zip b.closeAll.starts) ds } := rfl
  rw [hfinish, ← segmentTexts_root b.length_closeAll b.inlines_closeAll]
  split
  · rfl
  · generalize b.closeAll.root = root at hzip
    obtain ⟨kind, literal, children, inlines⟩ := root
    simp only [Block.segmentTexts, hzip]

/-- **Text is kept**: whatever the events are and in whatever order they come, the finished document has just the
texts that they carry. -/
theorem perm_segmentTexts_ofEvents (source : Text) (es : List (Event × Span)) (ds : List (Nat × Text)) :
    (Block.ofEvents source es ds).segmentTexts.Perm (Event.textsOfAll es) := by
  have hcounted : ((new source).events es).Counted := (counted_new source).events es
  have hclosed := perm_texts_closeAll ((sound_new source).events es)
  have htaken := perm_texts_events (sound_new source) es
  rw [Block.ofEvents, segmentTexts_finish hcounted]
  exact hclosed.trans htaken

end Builder

end CommonMark
