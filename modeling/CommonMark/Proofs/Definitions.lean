import CommonMark.Markup
import CommonMark.Proofs.Closing
import Mathlib.Data.List.Nodup
import Mathlib.Data.List.TakeWhile

/-!
# Definitions among the blocks of a document

Definitions are merged into the blocks that the events left. The builder makes no definition itself
(`Undefined.event`), so what is merged can be told apart again: the blocks are there in their order and so are the
definitions (`filter_located`). Where both were in the order of their offsets, all of them are
(`pairwise_located`). As definitions are sorted first, it does not matter in which order they are found
(`definitionPlaces_of_perm`).
-/

namespace CommonMark

namespace Builder

/-! ## Blocks that events leave -/

/-- Whether no open block and no block directly in one is a definition. -/
def Undefined (b : Builder) : Prop :=
  ∀ f ∈ b.blocks, f.block.kind.isDefinition = false ∧ ∀ c ∈ f.block.children, c.kind.isDefinition = false

theorem undefined_new (source : Text) : (new source).Undefined := by
  intro f hf
  obtain rfl := List.mem_singleton.1 hf
  exact ⟨rfl, List.forall_mem_nil _⟩

namespace Undefined

variable {b : Builder}

theorem tail {f : Frame} {fs : List Frame} {source : Text} {inlines : List InlineFrame} {loose : List Bool}
    {starts : List Nat} (h : Undefined ⟨source, f :: fs, inlines, loose, starts⟩) :
    Undefined ⟨source, fs, inlines, loose, starts⟩ := fun g hg => h g (List.mem_cons_of_mem f hg)

theorem attach (h : b.Undefined) {block : Block} (hblock : block.kind.isDefinition = false) (start : Nat) :
    (b.attach block start).Undefined := by
  obtain ⟨source, blocks, inlines, loose, starts⟩ := b
  cases blocks with
  | nil => exact h
  | cons f fs =>
    intro g hg
    rcases List.mem_cons.1 hg with rfl | hg
    · obtain ⟨hk, hc⟩ := h f List.mem_cons_self
      refine ⟨hk, fun c hmem => ?_⟩
      rcases List.mem_append.1 hmem with hmem | hmem
      · exact hc c hmem
      · obtain rfl := List.mem_singleton.1 hmem
        exact hblock
    · exact h g (List.mem_cons_of_mem f hg)

theorem openBlock (h : b.Undefined) {block : Block} (hblock : block.kind.isDefinition = false)
    (hchildren : block.children = []) (start : Nat) : (b.openBlock block start).Undefined := by
  intro g hg
  rcases List.mem_cons.1 hg with rfl | hg
  · refine ⟨hblock, fun c hc => ?_⟩
    simp [hchildren] at hc
  · exact h g hg

theorem closeBlock (h : b.Undefined) : b.closeBlock.Undefined := by
  obtain ⟨source, blocks, inlines, loose, starts⟩ := b
  rcases blocks with _ | ⟨f, _ | ⟨g, fs⟩⟩
  · exact h
  · exact h
  · exact attach (b := ⟨source, g :: fs, inlines, loose, starts⟩) h.tail (h f List.mem_cons_self).1 f.start

theorem closeImplicit (h : b.Undefined) : b.closeImplicit.Undefined := by
  unfold Builder.closeImplicit
  split
  · exact h.closeBlock
  · exact h

theorem onInlines (h : b.Undefined) (f : List Inline → List Inline) : (b.onInlines f).Undefined := by
  obtain ⟨source, blocks, inlines, loose, starts⟩ := b
  rcases inlines with _ | ⟨i, is⟩
  · rcases blocks with _ | ⟨top, fs⟩
    · exact h
    · intro g hg
      by_cases hc : top.block.kind.isContainer = true
      · simp only [Builder.onInlines, hc, ite_true, List.mem_cons] at hg
        rcases hg with rfl | hg
        · exact ⟨rfl, List.forall_mem_nil _⟩
        · exact h g (List.mem_cons.2 hg)
      · simp only [Builder.onInlines, hc, Bool.false_eq_true, ite_false, List.mem_cons] at hg
        rcases hg with rfl | hg
        · exact h top List.mem_cons_self
        · exact h g (List.mem_cons_of_mem top hg)
  · exact h

theorem getD_pushLiteral? {b' : Builder} (h : b.Undefined) (h' : b'.Undefined) (s : Segment) :
    ((b.pushLiteral? s).getD b').Undefined := by
  obtain ⟨source, blocks, inlines, loose, starts⟩ := b
  unfold pushLiteral?
  split
  · rename_i kind c children inlines' start implicit fs hblocks
    simp only at hblocks
    subst hblocks
    have hpush : Undefined ⟨source, ⟨⟨kind, some (.segmented (c.push s)), children, inlines'⟩, start, implicit⟩ :: fs,
        inlines, loose, starts⟩ := by
      intro g hg
      rcases List.mem_cons.1 hg with rfl | hg
      · obtain ⟨hk, hc⟩ := h ⟨⟨kind, some (.segmented c), children, inlines'⟩, start, implicit⟩ List.mem_cons_self
        exact ⟨hk, hc⟩
      · exact h g (List.mem_cons_of_mem _ hg)
    split
    · exact hpush
    · exact hpush
    · exact hpush
    · exact h'
  · exact h'

theorem closeInline (h : b.Undefined) : b.closeInline.Undefined := by
  obtain ⟨source, blocks, inlines, loose, starts⟩ := b
  cases inlines with
  | nil => exact h
  | cons i is => exact onInlines (b := ⟨source, blocks, is, loose, starts⟩) h _

theorem settleList (h : b.Undefined) : b.settleList.Undefined := by
  obtain ⟨source, blocks, inlines, loose, starts⟩ := b
  intro g hg
  unfold Builder.settleList at hg
  simp only at hg
  split at hg
  · rcases List.mem_cons.1 hg with rfl | hg
    · exact ⟨rfl, (h _ List.mem_cons_self).2⟩
    · exact h g (List.mem_cons_of_mem _ hg)
  · exact h g hg

theorem start (h : b.Undefined) (span : Span) (tag : Tag) : (b.start span tag).Undefined := by
  have hclose := h.closeImplicit
  cases tag with
  | paragraph =>
    simp only [Builder.start]
    split
    · have hblocks := Sound.blocks_markLoose b.closeImplicit
      refine openBlock ?_ rfl rfl span.start
      rwa [Undefined, hblocks]
    · exact hclose.openBlock rfl rfl span.start
  | heading level =>
    simp only [Builder.start]
    split
    · exact hclose.openBlock rfl rfl span.start
    · exact hclose.openBlock rfl rfl span.start
  | codeBlock info => cases info <;> exact hclose.openBlock rfl rfl span.start
  | blockQuote | htmlBlock | item | list _ => exact hclose.openBlock rfl rfl span.start
  | _ => exact h

theorem stop (h : b.Undefined) (tag : Tag) : (b.stop tag).Undefined := by
  cases tag with
  | paragraph | heading _ | blockQuote | codeBlock _ | htmlBlock => exact h.closeBlock
  | item => exact h.closeImplicit.closeBlock
  | list _ => exact h.closeImplicit.settleList.closeBlock
  | emphasis | strong | link _ _ | image _ _ | strikethrough | superscript | subscript => exact h.closeInline
  | _ => exact h

/-- **No event makes a definition.** -/
theorem event (h : b.Undefined) (span : Span) (e : Event) : (b.event span e).Undefined := by
  cases e with
  | start tag => exact h.start span tag
  | stop tag => exact h.stop tag
  | text t | inlineMath t | displayMath t | html t => exact h.getD_pushLiteral? (h.onInlines _) _
  | code t | inlineHtml t | softBreak | hardBreak => exact h.onInlines _
  | rule => exact h.closeImplicit.attach rfl span.start
  | footnoteReference _ | taskListMarker _ => exact h

theorem events (h : b.Undefined) (es : List (Event × Span)) : (b.events es).Undefined := by
  induction es generalizing b with
  | nil => exact h
  | cons e es ih => exact ih (h.event e.2 e.1)

theorem closeAll (h : b.Undefined) : b.closeAll.Undefined :=
  iterate (P := Undefined) (fun _ => closeBlock) (iterate (P := Undefined) (fun _ => closeInline) h _) _

/-- When all is closed, no block of the document is a definition. -/
theorem root_closeAll (h : b.Undefined) : ∀ c ∈ b.closeAll.root.children, c.kind.isDefinition = false := by
  have hclosed := h.closeAll
  generalize b.closeAll = b' at hclosed
  obtain ⟨source, blocks, inlines, loose, starts⟩ := b'
  cases blocks with
  | nil => exact List.forall_mem_nil _
  | cons f fs => exact (hclosed f List.mem_cons_self).2

end Undefined

end Builder

/-! ## Merging by offset -/

/-- A definition as a block, with its offset. -/
def locate (d : Nat × Text) : Block × Nat := (.definition d.2, d.1)

/-- The blocks that `placeDefinitions` gives, with their offsets. -/
def located : List (Block × Nat) → List (Nat × Text) → List (Block × Nat)
  | [], ds => ds.map locate
  | (block, start) :: bs, ds =>
    (ds.takeWhile (·.1 < start)).map locate ++ (block, start) :: located bs (ds.dropWhile (·.1 < start))

/-- Whether a block comes before another by their offsets; at one offset a definition comes last. -/
def Precedes (x y : Block × Nat) : Prop :=
  x.2 < y.2 ∨ x.2 = y.2 ∧ (x.1.kind.isDefinition = true → y.1.kind.isDefinition = true)

theorem map_fst_located (bs : List (Block × Nat)) (ds : List (Nat × Text)) :
    (located bs ds).map Prod.fst = placeDefinitions bs ds := by
  induction bs generalizing ds with
  | nil => simp [located, placeDefinitions, locate]
  | cons b bs ih => simp [located, placeDefinitions, locate, ih]

theorem filter_locate (ds : List (Nat × Text)) :
    (ds.map locate).filter (·.1.kind.isDefinition) = ds.map locate ∧
      (ds.map locate).filter (!·.1.kind.isDefinition) = [] := by
  have hdefinition : ∀ x ∈ ds.map locate, x.1.kind.isDefinition = true := by
    intro x hx
    obtain ⟨d, -, rfl⟩ := List.mem_map.1 hx
    rfl
  constructor
  · exact List.filter_eq_self.2 hdefinition
  · refine List.filter_eq_nil_iff.2 fun x hx => ?_
    simp [hdefinition x hx]

/-- **Merging loses nothing and keeps both orders.** -/
theorem filter_located {bs : List (Block × Nat)} (hbs : ∀ x ∈ bs, x.1.kind.isDefinition = false)
    (ds : List (Nat × Text)) :
    (located bs ds).filter (!·.1.kind.isDefinition) = bs ∧
      (located bs ds).filter (·.1.kind.isDefinition) = ds.map locate := by
  induction bs generalizing ds with
  | nil => exact ⟨(filter_locate ds).2, (filter_locate ds).1⟩
  | cons b bs ih =>
    obtain ⟨block, start⟩ := b
    have hblock : block.kind.isDefinition = false := hbs _ List.mem_cons_self
    obtain ⟨hblocks, hdefinitions⟩ := ih (fun x hx => hbs x (List.mem_cons_of_mem _ hx)) (ds.dropWhile (·.1 < start))
    obtain ⟨hbefore, hnone⟩ := filter_locate (ds.takeWhile (·.1 < start))
    constructor
    · rw [located, List.filter_append, hnone, List.filter_cons_of_pos (by simp [hblock]), hblocks, List.nil_append]
    · rw [located, List.filter_append, hbefore, List.filter_cons_of_neg (by simp [hblock]), hdefinitions,
        ← List.map_append, List.takeWhile_append_dropWhile]

theorem mem_located {bs : List (Block × Nat)} {ds : List (Nat × Text)} {x : Block × Nat} (h : x ∈ located bs ds) :
    x ∈ bs ∨ x ∈ ds.map locate := by
  induction bs generalizing ds with
  | nil => exact .inr h
  | cons b bs ih =>
    rw [located, List.mem_append, List.mem_cons] at h
    rcases h with h | rfl | h
    · obtain ⟨d, hd, rfl⟩ := List.mem_map.1 h
      exact .inr (List.mem_map_of_mem ((List.takeWhile_sublist _).subset hd))
    · exact .inl List.mem_cons_self
    · rcases ih h with h | h
      · exact .inl (List.mem_cons_of_mem b h)
      · obtain ⟨d, hd, rfl⟩ := List.mem_map.1 h
        exact .inr (List.mem_map_of_mem ((List.dropWhile_sublist _).subset hd))

theorem precedes_locate {d d' : Nat × Text} (h : d.1 ≤ d'.1) : Precedes (locate d) (locate d') := by
  rcases Nat.lt_or_eq_of_le h with h | h
  · exact .inl h
  · exact .inr ⟨h, fun _ => rfl⟩

/-- Where the offsets do not go down, the definitions that are left start no earlier than the block. -/
theorem le_of_mem_dropWhile {ds : List (Nat × Text)} (h : ds.Pairwise (·.1 ≤ ·.1)) {start : Nat} :
    ∀ d ∈ ds.dropWhile (·.1 < start), start ≤ d.1 := by
  induction ds with
  | nil => exact List.forall_mem_nil _
  | cons d ds ih =>
    obtain ⟨hd, hds⟩ := List.pairwise_cons.1 h
    by_cases hlt : d.1 < start
    · simpa [hlt] using ih hds
    · intro d' hd'
      rw [List.dropWhile_cons_of_neg (by simpa using hlt)] at hd'
      rcases List.mem_cons.1 hd' with rfl | hd'
      · omega
      · have hle := hd d' hd'
        omega

/-- **What is merged in order is in order.** -/
theorem pairwise_located {bs : List (Block × Nat)} (hundefined : ∀ x ∈ bs, x.1.kind.isDefinition = false)
    {ds : List (Nat × Text)} (hbs : bs.Pairwise (·.2 ≤ ·.2)) (hds : ds.Pairwise (·.1 ≤ ·.1)) :
    (located bs ds).Pairwise Precedes := by
  induction bs generalizing ds with
  | nil => exact List.pairwise_map.2 (hds.imp precedes_locate)
  | cons b bs ih =>
    obtain ⟨block, start⟩ := b
    obtain ⟨hfirst, hbs⟩ := List.pairwise_cons.1 hbs
    have hrest : (located bs (ds.dropWhile (·.1 < start))).Pairwise Precedes :=
      ih (fun x hx => hundefined x (List.mem_cons_of_mem _ hx)) hbs (hds.sublist (List.dropWhile_sublist _))
    have hbefore : ((ds.takeWhile (·.1 < start)).map locate).Pairwise Precedes :=
      List.pairwise_map.2 ((hds.sublist (List.takeWhile_sublist _)).imp precedes_locate)
    have hblock : ∀ x ∈ located bs (ds.dropWhile (·.1 < start)), start ≤ x.2 := by
      intro x hx
      rcases mem_located hx with hx | hx
      · exact hfirst x hx
      · obtain ⟨d, hd, rfl⟩ := List.mem_map.1 hx
        exact le_of_mem_dropWhile hds d hd
    have hplain : block.kind.isDefinition = false := hundefined _ List.mem_cons_self
    rw [located, List.pairwise_append, List.pairwise_cons]
    refine ⟨hbefore, ⟨fun x hx => ?_, hrest⟩, fun x hx y hy => .inl ?_⟩
    · rcases Nat.lt_or_eq_of_le (hblock x hx) with h | h
      · exact .inl h
      · exact .inr ⟨h, fun hdefinition => by simp [hplain] at hdefinition⟩
    · -- a definition before the block starts before all that follows
      obtain ⟨d, hd, rfl⟩ := List.mem_map.1 hx
      have hlt : d.1 < start := by simpa using List.mem_takeWhile_imp hd
      have hle : start ≤ y.2 := by
        rcases List.mem_cons.1 hy with rfl | hy
        · exact Nat.le_refl start
        · exact hblock y hy
      exact Nat.lt_of_lt_of_le hlt hle

/-! ## The order in which definitions are found -/

namespace Markup

/-- Definitions at different offsets are sorted alike in whatever order they were found. -/
theorem definitionPlaces_of_perm {ds ds' : List (Text × Definition)} (h : ds.Perm ds')
    (hstarts : (ds.map (·.2.start)).Nodup) : definitionPlaces ds = definitionPlaces ds' := by
  have hsorted : ∀ ps : List (Nat × Text), (ps.mergeSort fun p q => p.1 ≤ q.1).Pairwise fun p q => p.1 ≤ q.1 := by
    intro ps
    have hpairwise : (ps.mergeSort fun p q => p.1 ≤ q.1).Pairwise fun p q => decide (p.1 ≤ q.1) = true := by
      refine List.pairwise_mergeSort (fun p q r hpq hqr => ?_) (fun p q => ?_) ps
      · simp only [decide_eq_true_eq] at hpq hqr ⊢
        omega
      · simp only [Bool.or_eq_true, decide_eq_true_eq]
        omega
    exact hpairwise.imp of_decide_eq_true
  have hplaces : ((ds.map fun d => (d.2.start, d.2.label)).map Prod.fst).Nodup := by
    rwa [List.map_map]
  refine List.Perm.eq_of_pairwise ?_ (hsorted _) (hsorted _)
    ((List.mergeSort_perm _ _).trans ((h.map _).trans (List.mergeSort_perm _ _).symm))
  intro p q hp hq hpq hqp
  have hp' := (List.mergeSort_perm _ _).mem_iff.1 hp
  have hq' := (h.map _).mem_iff.2 ((List.mergeSort_perm _ _).mem_iff.1 hq)
  exact List.inj_on_of_nodup_map hplaces hp' hq' (Nat.le_antisymm hpq hqp)

end Markup

/-! ## Documents with definitions -/

theorem placeDefinitions_nil (bs : List (Block × Nat)) : placeDefinitions bs [] = bs.map Prod.fst := by
  induction bs with
  | nil => rfl
  | cons b bs ih => simp [placeDefinitions, ih]

/-- What a document has below it are the blocks that it has without definitions, merged with them. -/
theorem Builder.children_finish {b : Builder} (h : b.Counted) (ds : List (Nat × Text)) :
    (b.finish ds).children = placeDefinitions ((b.finish []).children.zip b.closeAll.starts) ds := by
  have hroot : b.finish [] = b.closeAll.root := rfl
  by_cases hds : ds.isEmpty = true
  · rw [List.isEmpty_iff.1 hds, placeDefinitions_nil, hroot, List.map_fst_zip (Nat.le_of_eq h.root_closeAll)]
  · have hplaced : b.finish ds = { b.closeAll.root with
        children := placeDefinitions (b.closeAll.root.children.zip b.closeAll.starts) ds } := if_neg hds
    rw [hplaced, hroot]

/-- Without the definitions, a document has below it what it has when there are none. -/
theorem Builder.filter_children_finish {b : Builder} (hcounted : b.Counted) (hundefined : b.Undefined)
    (ds : List (Nat × Text)) :
    (b.finish ds).children.filter (!·.kind.isDefinition) = (b.finish []).children := by
  have hlength : (b.finish []).children.length = b.closeAll.starts.length := hcounted.root_closeAll
  have hzip : ∀ x ∈ (b.finish []).children.zip b.closeAll.starts, x.1.kind.isDefinition = false := fun x hx =>
    hundefined.root_closeAll x.1 (List.of_mem_zip hx).1
  rw [children_finish hcounted, ← map_fst_located, List.filter_map]
  exact (congrArg (List.map Prod.fst) (filter_located hzip ds).1).trans (List.map_fst_zip (Nat.le_of_eq hlength))

/-- The offsets of the blocks of a stream of blocks. -/
theorem starts_eventsOfAll (source : Text) (forest : List BlockNode) :
    ((Builder.new source).events (BlockNode.eventsOfAll forest)).closeAll.starts = forest.map (·.start) := by
  have h : Builder.events ⟨source, [BlockNode.holding .document [] 0], [], [], []⟩ (BlockNode.eventsOfAll forest) = _ :=
    BlockNode.events_blocks forest
  exact congrArg (fun b => b.closeAll.starts) h

/-- The reader of the program, with the definitions in reverse. -/
def readReversed : Markup.Reader := fun smart source =>
  { Markup.read smart source with definitions := (Markup.read smart source).definitions.reverse }

end CommonMark
