import CommonMark.Proofs.Forest

/-!
# Building is translating

A builder that takes the stream of a forest ends with the trees of the forest (`ofEvents_eventsOfAll`). What
a run of inlines does to a builder is one change of the inlines that text goes to (`events_inlines`); in an
item this change leaves an open paragraph, which the next block or the end of the item closes
(`closeImplicit_openRun`). A block, whatever is below it, does to a builder what attaching its tree does
(`events_block`).
-/

namespace CommonMark

/-- Whether blocks of this kind use their literal. -/
def BlockKind.isVerbatim : BlockKind → Bool
  | indentedCode | fencedCode _ | htmlBlock => true
  | _ => false

def BlockKind.isDefinition : BlockKind → Bool
  | referenceDefinition _ => true
  | _ => false

namespace Builder

theorem events_append (b : Builder) (es es' : List (Event × Span)) :
    b.events (es ++ es') = (b.events es).events es' := List.foldl_append

theorem events_cons (b : Builder) (e : Event × Span) (es : List (Event × Span)) :
    b.events (e :: es) = (b.event e.2 e.1).events es := rfl

theorem events_enclosed (b : Builder) (tag : Tag) (ends : Ends) (es : List (Event × Span)) :
    b.events (enclosed tag ends es) = ((b.start ends.opening tag).events es).stop tag := by
  simp only [enclosed, List.cons_append, events_cons, events_append]; rfl

theorem segment_eq (b : Builder) (t : Text) (span : Span) : b.segment t span = sourceSegment b.source t span :=
  rfl

/-! ## Running text -/

/-- Whether the innermost block takes text into its literal. -/
def HoldsLiteral (b : Builder) : Bool := b.blocks.head?.any fun f => f.block.kind.isVerbatim

theorem pushLiteral?_eq_none {b : Builder} (h : b.HoldsLiteral = false) (s : Segment) :
    b.pushLiteral? s = none := by
  obtain ⟨source, blocks, inlines, loose, starts⟩ := b
  unfold pushLiteral?
  split
  · rename_i heq
    simp only at heq
    subst heq
    split <;> simp_all [HoldsLiteral, BlockKind.isVerbatim]
  · rfl

theorem holdsLiteral_openInline (b : Builder) (w : Wrapper) :
    (b.openInline w).HoldsLiteral = b.HoldsLiteral := rfl

theorem holdsLiteral_onInlines {b : Builder} (h : b.HoldsLiteral = false) (f : List Inline → List Inline) :
    (b.onInlines f).HoldsLiteral = false := by
  obtain ⟨source, blocks, inlines, loose, starts⟩ := b
  cases inlines with
  | cons i is => exact h
  | nil =>
    cases blocks with
    | nil => exact h
    | cons top fs =>
      by_cases hc : top.block.kind.isContainer = true
      · simp [onInlines, hc, HoldsLiteral, BlockKind.isVerbatim]
      · simpa [onInlines, hc, HoldsLiteral] using h

/-- Two changes of the inlines are one. -/
theorem onInlines_onInlines (b : Builder) (f g : List Inline → List Inline) :
    (b.onInlines f).onInlines g = b.onInlines (g ∘ f) := by
  obtain ⟨source, blocks, inlines, loose, starts⟩ := b
  cases inlines with
  | cons i is => rfl
  | nil =>
    cases blocks with
    | nil => rfl
    | cons top fs =>
      by_cases h : top.block.kind.isContainer = true
      · simp [onInlines, h, show BlockKind.paragraph.isContainer = false from rfl]
      · simp [onInlines, h]

theorem source_onInlines (b : Builder) (f : List Inline → List Inline) :
    (b.onInlines f).source = b.source := by
  unfold onInlines
  split
  · rfl
  · rfl
  · split <;> rfl

/-- A leaf is one change of the inlines, or none when it does not show. -/
theorem event_leaf {b : Builder} (h : b.HoldsLiteral = false) (l : InlineLeaf) (span : Span) :
    b.event span l.event = if l.shows then b.onInlines (l.onto b.source span) else b := by
  have hp := pushLiteral?_eq_none h
  cases l <;> simp [InlineLeaf.event, InlineLeaf.shows, event, text, hp, segment_eq, pushInlines] <;> rfl

end Builder

namespace InlineNode

open Builder

theorem start_inlineTag (b : Builder) (span : Span) (tag : InlineTag) :
    ∃ w : Wrapper, b.start span tag.tag = b.openInline w ∧ ∀ cs, w.close cs = tag.wrap cs := by
  cases tag <;> exact ⟨_, rfl, fun _ => rfl⟩

theorem stop_inlineTag (b : Builder) (tag : InlineTag) : b.stop tag.tag = b.closeInline := by
  cases tag <;> rfl

theorem eventsOfAll_append (ns ms : List InlineNode) :
    eventsOfAll (ns ++ ms) = eventsOfAll ns ++ eventsOfAll ms := by
  induction ns with
  | nil => rfl
  | cons n ns ih => simp [eventsOfAll, ih]

/-- Nodes that do not show leave no trace. -/
theorem ontoAll_of_not_shows (source : Text) :
    ∀ (is : List Inline) (ns : List InlineNode), ns.any (·.shows) = false → ontoAll source is ns = is
  | is, [], _ => rfl
  | is, n :: ns, h => by
    simp only [List.any_cons, Bool.or_eq_false_iff] at h
    have hn : onto source is n = is := by
      match n, h.1 with
      | leaf (.footnoteReference _) _, _ | leaf (.taskListMarker _) _, _ => rfl
    rw [ontoAll, hn, ontoAll_of_not_shows source is ns h.2]

mutual

/-- The events of a node are one change of the inlines, or none when it does not show. -/
theorem events_inline : ∀ (n : InlineNode) {b : Builder}, b.HoldsLiteral = false →
    b.events n.events = if n.shows then b.onInlines (fun is => onto b.source is n) else b
  | leaf l span, b, h => event_leaf h l span
  | marked tag ends content, b, h => by
    obtain ⟨w, hw, hclose⟩ := start_inlineTag b ends.opening tag
    have ih := events_inlines content ((holdsLiteral_openInline b w).trans h)
    have hopen : (b.openInline w).events (eventsOfAll content) =
        { b with inlines := ⟨w, ontoAll b.source [] content⟩ :: b.inlines } := by
      rw [ih]
      by_cases hs : content.any (·.shows) = true
      · simp only [hs, ite_true]; rfl
      · simp only [Bool.not_eq_true] at hs
        simp only [hs, ontoAll_of_not_shows _ _ _ hs]; rfl
    rw [events, events_enclosed, hw, hopen, stop_inlineTag, closeInline]
    simp only [hclose, shows, ite_true, onto]
    rfl

/-- So are the events of several nodes. -/
theorem events_inlines : ∀ (ns : List InlineNode) {b : Builder}, b.HoldsLiteral = false →
    b.events (eventsOfAll ns) =
      if ns.any (·.shows) then b.onInlines (fun is => ontoAll b.source is ns) else b
  | [], b, h => rfl
  | n :: ns, b, h => by
    rw [eventsOfAll, events_append, events_inline n h]
    by_cases hn : n.shows = true
    · simp only [hn, ite_true, List.any_cons, Bool.true_or]
      rw [events_inlines ns (holdsLiteral_onInlines h _), source_onInlines]
      by_cases hs : ns.any (·.shows) = true
      · simp only [hs, ite_true, onInlines_onInlines]; rfl
      · simp only [Bool.not_eq_true] at hs
        simp only [hs, ontoAll, ontoAll_of_not_shows _ _ _ hs]; rfl
    · simp only [Bool.not_eq_true] at hn
      have hone : ∀ is, onto b.source is n = is := by
        intro is
        simpa [ontoAll] using ontoAll_of_not_shows b.source is [n] (by simp [hn])
      simp only [hn, List.any_cons, Bool.false_or, ontoAll, hone]
      exact events_inlines ns h

end

/-- What a run of inlines directly in an item leaves: an open paragraph, unless nothing in it shows. -/
def openRun (b : Builder) (run : List InlineNode) : Builder :=
  if run.any (·.shows) then b.onInlines (fun is => ontoAll b.source is run) else b

theorem openRun_append (b : Builder) (h : b.HoldsLiteral = false) (run : List InlineNode) (n : InlineNode) :
    (openRun b run).events n.events = openRun b (run ++ [n]) := by
  rw [openRun, ← events_inlines run h, openRun, ← events_inlines (run ++ [n]) h, ← events_append,
    eventsOfAll_append]
  simp [eventsOfAll]

end InlineNode

namespace BlockNode

open Builder

/-- The innermost list is known to be loose. -/
def loosened : List Bool → List Bool
  | [] => []
  | _ :: ls => true :: ls

/-- Two reasons to be loose in a row. -/
theorem loosened_ite (p q : Bool) (loose : List Bool) :
    (if q then loosened (if p then loosened loose else loose) else if p then loosened loose else loose) =
      if p || q then loosened loose else loose := by
  cases p <;> cases q <;> cases loose <;> rfl

/-- An open block that was reported and holds some blocks. -/
def holding (kind : BlockKind) (cs : List Block) (start : Nat) : Frame := ⟨{ kind, children := cs }, start, false⟩

variable {source : Text} {f : Frame} {fs : List Frame} {loose : List Bool} {starts : List Nat}
  {kind : BlockKind} {cs : List Block} {start : Nat}

theorem closeImplicit_holding :
    closeImplicit ⟨source, holding kind cs start :: fs, [], loose, starts⟩ =
      ⟨source, holding kind cs start :: fs, [], loose, starts⟩ := rfl

/-- Closing what a run leaves in an item attaches the paragraph of the run. -/
theorem closeImplicit_openRun (run : List InlineNode) :
    (InlineNode.openRun ⟨source, holding .listItem cs start :: f :: fs, [], loose, starts⟩ run).closeImplicit =
      ⟨source, holding .listItem (cs ++ runTrees source run) start :: f :: fs, [], loose, starts⟩ := by
  unfold InlineNode.openRun runTrees
  by_cases h : run.any (·.shows) = true
  · simp only [h, ite_true]; rfl
  · simp only [h, Bool.false_eq_true, ite_false, List.append_nil]; rfl

/-- Every block first closes the paragraph that a run has left open. -/
theorem events_closeImplicit (n : BlockNode) {b : Builder} (h : b.closeImplicit.closeImplicit = b.closeImplicit) :
    b.events n.events = b.closeImplicit.events n.events := by
  cases n with
  | code info ends lines =>
    cases info <;> simp only [events, events_enclosed, Builder.start, h]
  | rule span => simp only [events, events_cons, event, h]
  | _ => simp only [events, events_enclosed, Builder.start, h]

/-- A block of running text. -/
theorem closeBlock_inlines {b : Builder} (hi : b.inlines = []) (hb : b.blocks ≠ [])
    (hc : kind.isContainer = false) (hv : kind.isVerbatim = false) (content : List InlineNode) :
    ((b.openBlock (.ofKind kind) start).events (InlineNode.eventsOfAll content)).closeBlock =
      b.attach { kind, inlines := InlineNode.ontoAll b.source [] content } start := by
  obtain ⟨source, blocks, inlines, loose, starts⟩ := b
  simp only at hi
  subst hi
  obtain ⟨f, fs, rfl⟩ := List.exists_cons_of_ne_nil hb
  rw [InlineNode.events_inlines content (by simp [HoldsLiteral, openBlock, Block.ofKind, hv])]
  by_cases h : content.any (·.shows) = true
  · simp [h, openBlock, onInlines, Block.ofKind, hc, closeBlock]
  · simp only [Bool.not_eq_true] at h
    simp [h, InlineNode.ontoAll_of_not_shows, openBlock, Block.ofKind, closeBlock]

/-- A line goes to the literal of the innermost block. -/
theorem event_line (hv : kind.isVerbatim = true) (c : Content) (l : HtmlLine) :
    Builder.event ⟨source, ⟨⟨kind, some (.segmented c), [], []⟩, start, false⟩ :: fs, [], loose, starts⟩
        l.event.2 l.event.1 =
      ⟨source, ⟨⟨kind, some (.segmented (c.push (sourceSegment source l.text l.span))), [], []⟩, start, false⟩ :: fs,
        [], loose, starts⟩ := by
  obtain ⟨isText, t, span⟩ := l
  have hp : ∀ s, pushLiteral? ⟨source, ⟨⟨kind, some (.segmented c), [], []⟩, start, false⟩ :: fs, [], loose, starts⟩ s =
      some ⟨source, ⟨⟨kind, some (.segmented (c.push s)), [], []⟩, start, false⟩ :: fs, [], loose, starts⟩ := by
    intro s
    cases kind <;> simp [BlockKind.isVerbatim] at hv <;> rfl
  cases isText <;> simp [HtmlLine.event, event, Builder.text, hp, segment_eq]

theorem events_lines (hv : kind.isVerbatim = true) (c : Content) (ls : List HtmlLine) :
    Builder.events ⟨source, ⟨⟨kind, some (.segmented c), [], []⟩, start, false⟩ :: fs, [], loose, starts⟩
        (ls.map (·.event)) =
      ⟨source, ⟨⟨kind, some (.segmented
        ((ls.map fun l => sourceSegment source l.text l.span).foldl Content.push c)), [], []⟩, start, false⟩ :: fs,
        [], loose, starts⟩ := by
  induction ls generalizing c with
  | nil => rfl
  | cons l ls ih => rw [List.map_cons, events_cons, event_line hv, ih]; rfl

/-- A block of lines. -/
theorem closeBlock_lines {b : Builder} (hi : b.inlines = []) (hb : b.blocks ≠ []) (hv : kind.isVerbatim = true)
    (ls : List HtmlLine) :
    ((b.openBlock (literalBlock kind) start).events (ls.map (·.event))).closeBlock =
      b.attach { kind, literal := literalOf b.source (ls.map fun l => (l.text, l.span)) } start := by
  obtain ⟨source, blocks, inlines, loose, starts⟩ := b
  simp only at hi
  subst hi
  obtain ⟨f, fs, rfl⟩ := List.exists_cons_of_ne_nil hb
  rw [openBlock, literalBlock, events_lines hv]
  simp only [closeBlock, literalOf, Content.ofSegments, List.map_map]
  rfl

mutual

/-- The events of a block attach its tree, and a paragraph in an item makes the list loose. -/
theorem events_block : ∀ (n : BlockNode) {kind : BlockKind} {cs : List Block} {start : Nat} {fs : List Frame}
    {loose : List Bool} {starts : List Nat},
    Builder.events ⟨source, holding kind cs start :: fs, [], loose, starts⟩ n.events =
      ⟨source, holding kind (cs ++ [n.tree source]) start :: fs, [],
        if n.isParagraph && kind = .listItem then loosened loose else loose,
        if fs.isEmpty then starts ++ [n.start] else starts⟩
  | paragraph ends content, kind, cs, start, fs, loose, starts => by
    rw [events, events_enclosed, Builder.start, closeImplicit_holding]
    by_cases hk : kind = .listItem
    · subst hk
      have hm : markLoose ⟨source, holding .listItem cs start :: fs, [], loose, starts⟩ =
          ⟨source, holding .listItem cs start :: fs, [], loosened loose, starts⟩ := by cases loose <;> rfl
      simp only [holding, List.head?_cons, Option.any_some, decide_true, ite_true, isParagraph, Bool.true_and]
      rw [← holding, hm, stop, closeBlock_inlines rfl (by simp) rfl rfl]
      rfl
    · simp only [holding, List.head?_cons, Option.any_some, hk, decide_false, Bool.and_false]
      exact closeBlock_inlines rfl (by simp) rfl rfl content
  | heading level ends content, kind, cs, start, fs, loose, starts => by
    rw [events, events_enclosed, Builder.start, closeImplicit_holding]
    have hc : (headingKind source level ends.opening).isContainer = false := by unfold headingKind; split <;> rfl
    have hv : (headingKind source level ends.opening).isVerbatim = false := by unfold headingKind; split <;> rfl
    exact (closeBlock_inlines rfl (by simp) hc hv content).trans rfl
  | quote ends content, kind, cs, start, fs, loose, starts => by
    rw [events, events_enclosed, Builder.start, closeImplicit_holding]
    have ih : Builder.events ⟨source, holding .blockQuote [] ends.opening.start :: holding kind cs start :: fs, [],
        loose, starts⟩ (eventsOfAll content) = _ := events_blocks content
    simp only [reduceCtorEq, decide_false, Bool.and_false, List.isEmpty_cons, List.nil_append] at ih
    exact (congrArg closeBlock ih).trans rfl
  | code info ends lines, kind, cs, start, fs, loose, starts => by
    have hl : lines.map (fun l => (Event.text l.1, l.2)) =
        (lines.map fun l => HtmlLine.mk true l.1 l.2).map (·.event) := by simp [HtmlLine.event]
    have ht : (lines.map fun l => HtmlLine.mk true l.1 l.2).map (fun l => (l.text, l.span)) = lines := by
      simp [Function.comp_def]
    cases info with
    | none =>
      rw [events, events_enclosed, hl, Builder.start, closeImplicit_holding, stop,
        closeBlock_lines rfl (by simp) rfl, ht]
      rfl
    | some info =>
      rw [events, events_enclosed, hl, Builder.start, closeImplicit_holding, stop,
        closeBlock_lines rfl (by simp) rfl, ht]
      rfl
  | html ends lines, kind, cs, start, fs, loose, starts => by
    rw [events, events_enclosed, Builder.start, closeImplicit_holding, stop, closeBlock_lines rfl (by simp) rfl]
    rfl
  | list first ends items, kind, cs, start, fs, loose, starts => by
    rw [events, events_enclosed, Builder.start, closeImplicit_holding]
    have ih : Builder.events ⟨source, holding (.list (listStyle ((ends.opening.read? source).getD []) first) true) []
        ends.opening.start :: holding kind cs start :: fs, [], false :: loose, starts⟩ (eventsOfItems items) = _ :=
      events_items items
    refine (congrArg (fun b => (settleList (closeImplicit b)).closeBlock) ih).trans ?_
    simp only [closeImplicit_holding]
    rfl
  | rule span, kind, cs, start, fs, loose, starts => rfl

/-- The events of a forest attach its trees. -/
theorem events_blocks : ∀ (ns : List BlockNode) {kind : BlockKind} {cs : List Block} {start : Nat}
    {fs : List Frame} {loose : List Bool} {starts : List Nat},
    Builder.events ⟨source, holding kind cs start :: fs, [], loose, starts⟩ (eventsOfAll ns) =
      ⟨source, holding kind (cs ++ trees source ns) start :: fs, [],
        if ns.any (·.isParagraph) && kind = .listItem then loosened loose else loose,
        if fs.isEmpty then starts ++ ns.map (·.start) else starts⟩
  | [], kind, cs, start, fs, loose, starts => by simp [eventsOfAll, trees, Builder.events]
  | n :: ns, kind, cs, start, fs, loose, starts => by
    rw [eventsOfAll, events_append, events_block n, events_blocks ns, loosened_ite, ← Bool.and_or_distrib_right]
    cases fs <;> simp [trees]

theorem events_items : ∀ (is : List ItemNode) {kind : BlockKind} {cs : List Block} {start : Nat}
    {f : Frame} {fs : List Frame} {l : Bool} {loose : List Bool} {starts : List Nat},
    Builder.events ⟨source, holding kind cs start :: f :: fs, [], l :: loose, starts⟩ (eventsOfItems is) =
      ⟨source, holding kind (cs ++ itemTrees source is) start :: f :: fs, [],
        (l || is.any (·.isLoose)) :: loose, starts⟩
  | [], kind, cs, start, f, fs, l, loose, starts => by simp [eventsOfItems, itemTrees, Builder.events]
  | .mk ends content :: is, kind, cs, start, f, fs, l, loose, starts => by
    rw [eventsOfItems, events_append, events_enclosed, Builder.start, closeImplicit_holding, stop]
    have ih : closeImplicit (Builder.events ⟨source, holding .listItem [] ends.opening.start ::
        holding kind cs start :: f :: fs, [], l :: loose, starts⟩ (eventsOfParts content)) = _ :=
      events_parts content []
    have hitem : (closeBlock (closeImplicit (Builder.events (openBlock ⟨source, holding kind cs start :: f :: fs, [],
        l :: loose, starts⟩ (.ofKind .listItem) ends.opening.start) (eventsOfParts content)))) =
        ⟨source, holding kind (cs ++ [{ kind := .listItem, children := partTrees source [] content }]) start :: f :: fs,
          [], (l || content.any (·.isParagraph)) :: loose, starts⟩ := by
      refine (congrArg closeBlock ih).trans ?_
      cases content.any (·.isParagraph) <;> cases l <;> rfl
    rw [hitem, events_items is]
    simp [itemTrees, ItemNode.isLoose, Bool.or_assoc]

/-- The events of what stands in an item, after a run of inlines there. -/
theorem events_parts : ∀ (ps : List PartNode) (run : List InlineNode) {cs : List Block} {start : Nat}
    {f : Frame} {fs : List Frame} {loose : List Bool} {starts : List Nat},
    ((InlineNode.openRun ⟨source, holding .listItem cs start :: f :: fs, [], loose, starts⟩ run).events
        (eventsOfParts ps)).closeImplicit =
      ⟨source, holding .listItem (cs ++ partTrees source run ps) start :: f :: fs, [],
        if ps.any (·.isParagraph) then loosened loose else loose, starts⟩
  | [], run, cs, start, f, fs, loose, starts => closeImplicit_openRun run
  | .block n :: ps, run, cs, start, f, fs, loose, starts => by
    have ih : closeImplicit (Builder.events ⟨source, holding .listItem (cs ++ runTrees source run ++ [n.tree source])
        start :: f :: fs, [], if n.isParagraph then loosened loose else loose, starts⟩ (eventsOfParts ps)) = _ :=
      events_parts ps []
    rw [eventsOfParts, events_append, events_closeImplicit n (by rw [closeImplicit_openRun]; rfl),
      closeImplicit_openRun, events_block n]
    simp only [decide_true, Bool.and_true, List.isEmpty_cons]
    refine ih.trans ?_
    rw [loosened_ite, partTrees, List.any_cons, PartNode.isParagraph]
    simp only [List.append_assoc, List.singleton_append]
  | .inline n :: ps, run, cs, start, f, fs, loose, starts => by
    rw [eventsOfParts, events_append, InlineNode.openRun_append _ rfl, events_parts ps]
    rfl

end

end BlockNode

/-- **Building is translating**: the document built from the stream of a forest is the one whose blocks are
the trees of the forest, whatever the source and the spans are. -/
theorem ofEvents_eventsOfAll (source : Text) (forest : List BlockNode) :
    Block.ofEvents source (BlockNode.eventsOfAll forest) [] = .document (BlockNode.trees source forest) := by
  have h : Builder.events ⟨source, [BlockNode.holding .document [] 0], [], [], []⟩ (BlockNode.eventsOfAll forest) = _ :=
    BlockNode.events_blocks forest
  exact (congrArg (fun b => Builder.finish b []) h).trans rfl

/-- A rule parts the runs of an item. Text joins over what does not show but not over markup that is left
out, and an empty run of such markup is a paragraph still. -/
example :
    let span : Span := ⟨0, 0⟩
    let ends : Ends := ⟨span, span⟩
    let text (t : Text) : PartNode := .inline (.leaf (.text t) span)
    (BlockNode.list none ends [.mk ends [text ['a'], .inline (.leaf (.taskListMarker true) span), text ['b'],
        .block (.rule span), .inline (.leaf (.footnoteReference []) span), .block (.rule span),
        .inline (.marked .strikethrough ends [])]]).tree [] =
      { kind := .list (.bullet '-') true
        children := [{ kind := .listItem
                       children := [{ kind := .paragraph
                                      inlines := [.text (.segmented ⟨[.whole ['a'], .whole ['b']]⟩)] },
                         .ofKind .horizontalRuler, .ofKind .horizontalRuler, .ofKind .paragraph] }] } := by
  rfl

end CommonMark
