import CommonMark.Markup
import CommonMark.Proofs.Detached
import CommonMark.Proofs.Html.Transcript
import CommonMark.Proofs.Offsets

/-!
# Rendering without the source

The HTML of a built document is a function of its events: the source, the spans and the definitions leave no
trace in it (`renderHtml_ofEvents`). A builder that loses its source takes the same steps as before on the
empty source (`Builder.detach_event`), and every block of the document has an offset to be merged by
(`Builder.Counted.event`), so merging definitions drops no block.
-/

namespace CommonMark

theorem appendText_cons_cons (s : Segment) (i j : Inline) (js : List Inline) :
    appendText s (i :: j :: js) = i :: appendText s (j :: js) := by
  simp [appendText]

theorem detachAll_appendText (s : Segment) (is : List Inline) :
    Inline.detachAll (appendText s is) = appendText s.detach (Inline.detachAll is) := by
  induction is with
  | nil => simp only [appendText, Inline.detachAll, Inline.detach, Literal.detach_single]
  | cons i is ih =>
    cases is with
    | nil =>
      cases i with
      | text l =>
        cases l with
        | plain t =>
          have h : ∀ s, appendText s [.text (.plain t)] = [.text (.plain t), .text (.single s)] := fun _ => rfl
          rw [h, Inline.detachAll, Inline.detachAll, Inline.detach, Inline.detach, Literal.detach_single]
          rfl
        | segmented c => simp only [appendText, Inline.detachAll, Inline.detach, Literal.detach, Content.detach_push]
      | _ => simp only [appendText, Inline.detachAll, Inline.detach, Literal.detach_single]
    | cons j js =>
      simp only [appendText_cons_cons, Inline.detachAll] at ih ⊢
      rw [ih]

theorem detachAll_close (w : Wrapper) (cs : List Inline) :
    Inline.detachAll (w.close cs) = w.close (Inline.detachAll cs) := by
  cases w <;> rfl

/-! ## Builders without a source -/

def Frame.detach (f : Frame) : Frame := ⟨f.block.detach, 0, f.implicit⟩

def InlineFrame.detach (i : InlineFrame) : InlineFrame := ⟨i.wrapper, Inline.detachAll i.children⟩

/-- The span at the start of any source. -/
def Span.zero : Span := ⟨0, 0⟩

namespace Builder

/-- A builder without its source. -/
def detach (b : Builder) : Builder where
  source := []
  blocks := b.blocks.map Frame.detach
  inlines := b.inlines.map InlineFrame.detach
  loose := b.loose
  starts := b.starts.map fun _ => 0

theorem detach_segment (b : Builder) (t : Text) (span : Span) :
    (b.segment t span).detach = b.detach.segment t .zero := by
  rw [Segment.detach, text_segment]
  cases t with
  | nil => rfl
  | cons c t => rfl

theorem detach_attach (b : Builder) (block : Block) (start : Nat) :
    (b.attach block start).detach = b.detach.attach block.detach 0 := by
  obtain ⟨source, blocks, inlines, loose, starts⟩ := b
  rcases blocks with _ | ⟨f, _ | ⟨g, fs⟩⟩
  · rfl
  · simp [attach, detach, Frame.detach, Block.detach, Block.detachAll_append, Block.detachAll]
  · simp [attach, detach, Frame.detach, Block.detach, Block.detachAll_append, Block.detachAll]

theorem detach_openBlock (b : Builder) (block : Block) (start : Nat) :
    (b.openBlock block start).detach = b.detach.openBlock block.detach 0 := rfl

theorem detach_closeBlock (b : Builder) : b.closeBlock.detach = b.detach.closeBlock := by
  obtain ⟨source, blocks, inlines, loose, starts⟩ := b
  rcases blocks with _ | ⟨f, _ | ⟨g, fs⟩⟩
  · rfl
  · rfl
  · exact detach_attach _ f.block f.start

theorem detach_closeImplicit (b : Builder) : b.closeImplicit.detach = b.detach.closeImplicit := by
  have hhead : b.detach.blocks.head?.any (·.implicit) = b.blocks.head?.any (·.implicit) := by
    obtain ⟨source, blocks, inlines, loose, starts⟩ := b
    cases blocks <;> rfl
  unfold closeImplicit
  rw [hhead]
  split
  · exact detach_closeBlock b
  · rfl

theorem detach_onInlines (b : Builder) {f g : List Inline → List Inline}
    (h : ∀ is, Inline.detachAll (f is) = g (Inline.detachAll is)) :
    (b.onInlines f).detach = b.detach.onInlines g := by
  obtain ⟨source, blocks, inlines, loose, starts⟩ := b
  cases inlines with
  | cons i is => simp [onInlines, detach, InlineFrame.detach, h]
  | nil =>
    cases blocks with
    | nil => rfl
    | cons top fs =>
      have hk := BlockKind.isContainer_detach top.block.kind
      have hp : BlockKind.paragraph.detach = .paragraph := rfl
      have hnil : Inline.detachAll (f []) = g [] := h []
      by_cases hc : top.block.kind.isContainer = true
      · simp [onInlines, detach, hc, hk, hp, hnil, Frame.detach, Block.detach, Block.detachAll]
      · simp [onInlines, detach, hc, hk, Frame.detach, Block.detach, h]

theorem detach_pushInlines (b : Builder) (is : List Inline) :
    (b.pushInlines is).detach = b.detach.pushInlines (Inline.detachAll is) :=
  detach_onInlines b fun js => Inline.detachAll_append js is

theorem detach_pushLiteral? (b : Builder) (s : Segment) :
    (b.pushLiteral? s).map detach = b.detach.pushLiteral? s.detach := by
  obtain ⟨source, blocks, inlines, loose, starts⟩ := b
  cases blocks with
  | nil => rfl
  | cons f fs =>
    obtain ⟨⟨kind, literal, children, inlines'⟩, start, implicit⟩ := f
    cases literal with
    | none => rfl
    | some l =>
      cases l with
      | plain t => rfl
      | segmented c =>
        cases kind with
        | list style tight => cases style <;> rfl
        | indentedCode | fencedCode info | htmlBlock =>
          simp [pushLiteral?, detach, Frame.detach, Block.detach, BlockKind.detach, Literal.detach, Content.detach_push]
        | _ => rfl

theorem detach_getD_pushLiteral? (b b' : Builder) (s : Segment) :
    ((b.pushLiteral? s).getD b').detach = (b.detach.pushLiteral? s.detach).getD b'.detach := by
  rw [← detach_pushLiteral?]
  cases b.pushLiteral? s <;> rfl

theorem detach_text (b : Builder) (t : Text) (span : Span) : (b.text t span).detach = b.detach.text t .zero := by
  simp only [text]
  rw [detach_getD_pushLiteral?, detach_onInlines b (detachAll_appendText (b.segment t span)), detach_segment]

theorem detach_closeInline (b : Builder) : b.closeInline.detach = b.detach.closeInline := by
  obtain ⟨source, blocks, inlines, loose, starts⟩ := b
  cases inlines with
  | nil => rfl
  | cons i is =>
    have h := detach_pushInlines ⟨source, blocks, is, loose, starts⟩ (i.wrapper.close i.children)
    rw [detachAll_close] at h
    exact h

theorem detach_markLoose (b : Builder) : b.markLoose.detach = b.detach.markLoose := by
  obtain ⟨source, blocks, inlines, loose, starts⟩ := b
  cases loose <;> rfl

theorem detach_settleList (b : Builder) : b.settleList.detach = b.detach.settleList := by
  obtain ⟨source, blocks, inlines, loose, starts⟩ := b
  cases blocks with
  | nil => rfl
  | cons f fs =>
    obtain ⟨⟨kind, literal, children, inlines'⟩, start, implicit⟩ := f
    cases kind with
    | list style tight => cases style <;> rfl
    | _ => rfl

theorem head_detach (b : Builder) :
    b.detach.blocks.head?.any (·.block.kind = .listItem) = b.blocks.head?.any (·.block.kind = .listItem) := by
  obtain ⟨source, blocks, inlines, loose, starts⟩ := b
  cases blocks with
  | nil => rfl
  | cons f fs => simp [detach, Frame.detach, BlockKind.detach_eq_listItem]

theorem detach_start (b : Builder) (span : Span) (tag : Tag) :
    (b.start span tag).detach = b.detach.start .zero tag := by
  have hclose := detach_closeImplicit b
  cases tag with
  | paragraph =>
    simp only [start, detach_openBlock]
    rw [← hclose, head_detach]
    split
    · rw [detach_markLoose]
      rfl
    · rfl
  | heading level =>
    -- without a source no header starts with number signs
    have hkind : ∀ p : Bool, (Block.ofKind (if p then .atxHeader level.toNat else .setextHeader level.toNat)).detach =
        .ofKind (.setextHeader level.toNat) := by
      intro p
      cases p <;> rfl
    simp only [start, detach_openBlock, hkind]
    rw [← hclose]
    rfl
  | codeBlock info =>
    cases info <;> simp only [start, detach_openBlock, hclose] <;> rfl
  | list first =>
    have hstyle : ∀ source, (Block.ofKind (.list (listStyle source first) true)).detach =
        .ofKind (.list (listStyle [] first) true) := by
      intro source
      cases first with
      | none => rfl
      | some n =>
        unfold listStyle
        simp only
        split <;> rfl
    simp only [start, detach_openBlock, hstyle]
    rw [← hclose]
    rfl
  | blockQuote | htmlBlock | item =>
    simp only [start, detach_openBlock, hclose]
    rfl
  | _ => rfl

theorem detach_stop (b : Builder) (tag : Tag) : (b.stop tag).detach = b.detach.stop tag := by
  cases tag with
  | paragraph | heading _ | blockQuote | codeBlock _ | htmlBlock => exact detach_closeBlock b
  | item => simp only [stop, detach_closeBlock, detach_closeImplicit]
  | list first => simp only [stop, detach_closeBlock, detach_settleList, detach_closeImplicit]
  | emphasis | strong | link _ _ | image _ _ | strikethrough | superscript | subscript =>
    exact detach_closeInline b
  | _ => rfl

/-- **A builder without its source goes on alike**, on the empty source. -/
theorem detach_event (b : Builder) (span : Span) (e : Event) :
    (b.event span e).detach = b.detach.event .zero e := by
  cases e with
  | start tag => exact detach_start b span tag
  | stop tag => exact detach_stop b tag
  | text t | inlineMath t | displayMath t => exact detach_text b t span
  | code t | inlineHtml t =>
    simp only [event, detach_pushInlines, Inline.detachAll, Inline.detach, Literal.detach_single, detach_segment]
  | html t =>
    simp only [event, detach_getD_pushLiteral?, detach_pushInlines, Inline.detachAll, Inline.detach,
      Literal.detach_single, detach_segment]
  | softBreak | hardBreak => exact detach_pushInlines b _
  | rule =>
    simp only [event, detach_attach, detach_closeImplicit]
    rfl
  | footnoteReference _ | taskListMarker _ => rfl

theorem detach_events (b : Builder) (es : List (Event × Span)) :
    (b.events es).detach = b.detach.events (es.map fun e => (e.1, .zero)) := by
  induction es generalizing b with
  | nil => rfl
  | cons e es ih =>
    have hstep : (b.event e.2 e.1).detach = b.detach.event .zero e.1 := detach_event b e.2 e.1
    have htail := ih (b.event e.2 e.1)
    rw [hstep] at htail
    exact htail

theorem detach_iterate {f : Builder → Builder} (h : ∀ b, (f b).detach = f b.detach) (n : Nat) (b : Builder) :
    (n.repeat f b).detach = n.repeat f b.detach := by
  induction n with
  | zero => rfl
  | succ n ih => rw [Nat.repeat, h, ih, Nat.repeat]

theorem detach_closeAll (b : Builder) : b.closeAll.detach = b.detach.closeAll := by
  have hinlines := detach_iterate detach_closeInline b.inlines.length b
  have hlength : b.detach.inlines.length = b.inlines.length := List.length_map ..
  have hblocks : ∀ b' : Builder, b'.detach.blocks.length = b'.blocks.length := fun _ => List.length_map ..
  unfold closeAll
  rw [detach_iterate detach_closeBlock, hinlines, hlength, ← hblocks, hinlines]

theorem detach_root (b : Builder) : b.root.detach = b.detach.root := by
  obtain ⟨source, blocks, inlines, loose, starts⟩ := b
  cases blocks <;> rfl

theorem detach_finish (b : Builder) : (b.finish []).detach = b.detach.finish [] := by
  show b.closeAll.root.detach = b.detach.closeAll.root
  rw [detach_root, detach_closeAll]

end Builder

namespace Html

/-! ## Definitions show nothing -/

theorem blocksSteps_definitions (probe : Probe) (tight : Bool) (ds : List (Nat × Text)) :
    blocksSteps probe tight (ds.map fun d => .definition d.2) = [] := by
  induction ds with
  | nil => rfl
  | cons d ds ih => rw [List.map_cons, blocksSteps, ih]; rfl

theorem blocksSteps_placeDefinitions (probe : Probe) (tight : Bool) (bs : List (Block × Nat))
    (ds : List (Nat × Text)) :
    blocksSteps probe tight (placeDefinitions bs ds) = blocksSteps probe tight (bs.map Prod.fst) := by
  induction bs generalizing ds with
  | nil => exact blocksSteps_definitions probe tight ds
  | cons b bs ih =>
    rw [placeDefinitions, blocksSteps_append, blocksSteps_definitions, blocksSteps, ih]
    rfl

theorem blockSteps_of_children {probe : Probe} {b : Block} {cs : List Block}
    (h : ∀ tight, blocksSteps probe tight cs = blocksSteps probe tight b.children) (tight : Bool) :
    blockSteps probe tight { b with children := cs } = blockSteps probe tight b := by
  obtain ⟨kind, literal, children, inlines⟩ := b
  cases kind <;> simp only [blockSteps, h]

/-- The definitions of a document do not show. -/
theorem blockSteps_finish (probe : Probe) (tight : Bool) {b : Builder} (h : b.Counted) (ds : List (Nat × Text)) :
    blockSteps probe tight (b.finish ds) = blockSteps probe tight (b.finish []) := by
  by_cases hds : ds.isEmpty = true
  · rw [List.isEmpty_iff.1 hds]
  · have hplaced : b.finish ds = { b.closeAll.root with
        children := placeDefinitions (b.closeAll.root.children.zip b.closeAll.starts) ds } := if_neg hds
    rw [hplaced]
    refine blockSteps_of_children (fun tight => ?_) tight
    rw [blocksSteps_placeDefinitions, List.map_fst_zip (Nat.le_of_eq h.root_closeAll)]

/-- What is written for a document, from its events alone. -/
theorem blockSteps_ofEvents (probe : Probe) (tight : Bool) (source : Text) (es : List (Event × Span))
    (ds : List (Nat × Text)) :
    blockSteps probe tight (Block.ofEvents source es ds) =
      blockSteps probe tight (Block.ofEvents [] (es.map fun e => (e.1, .zero)) []) := by
  have hcounted : ((Builder.new source).events es).Counted := (Builder.counted_new source).events es
  have hdetach : (Block.ofEvents source es []).detach = Block.ofEvents [] (es.map fun e => (e.1, .zero)) [] := by
    rw [Block.ofEvents, Builder.detach_finish, Builder.detach_events]
    rfl
  rw [Block.ofEvents, blockSteps_finish probe tight hcounted, ← Block.ofEvents, ← hdetach, blockSteps_detach]

theorem renderHtml_eq (source : Text) (es : List (Event × Span)) (ds : List (Nat × Text)) :
    renderHtml (Block.ofEvents source es ds) = renderHtml (Block.ofEvents [] (es.map fun e => (e.1, .zero)) []) :=
  congrArg (transcript true) (blockSteps_ofEvents .html5 false source es ds)

/-- **The source leaves no trace in the HTML**: documents built from the same events are rendered alike, whatever
the sources, the spans and the definitions; so it does not matter whether definitions are kept as blocks, whatever
reads the source. -/
theorem renderHtml_ofEvents :
    (∀ (es : List (Event × Span × Span)) (source source' : Text) (ds ds' : List (Nat × Text)),
      renderHtml (Block.ofEvents source (es.map fun e => (e.1, e.2.1)) ds) =
        renderHtml (Block.ofEvents source' (es.map fun e => (e.1, e.2.2)) ds')) ∧
    ∀ (read : Markup.Reader) (smart : Bool) (source : Text),
      renderHtml (Markup.parse ⟨smart, true⟩ source read) = renderHtml (Markup.parse ⟨smart, false⟩ source read) := by
  constructor
  · intro es source source' ds ds'
    rw [renderHtml_eq source, renderHtml_eq source', List.map_map, List.map_map]
    rfl
  · intro read smart source
    have hon := renderHtml_eq source (read smart source).events
      (Markup.definitionPlaces (read smart source).definitions)
    have hoff := renderHtml_eq source (read smart source).events []
    exact hon.trans hoff.symm

end Html

end CommonMark
