import CommonMark.Proofs.Stack

/-!
# Closing a document

What is open when the events end is closed from the inside, first the inlines and then the blocks. `closeInlines` and
`closeBlocks` are the two loops as they run, each as long as something is open; they end, and in the state that
counting gives (`closeAll_eq`). Each open block then hangs in the document below the one that was around it, with all
that it held (`hangs_finish`). With the invariant of the stack this says what every builder that took events is like
and what becomes of it (`orderly_events`).
-/

namespace CommonMark

/-- Whether a finished block is what an open one became: it keeps what it is and what it held. -/
def Frame.Became (f : Frame) (block : Block) : Prop :=
  block.kind = f.block.kind ∧ block.literal = f.block.literal ∧ f.block.inlines <+: block.inlines

/-- Whether open blocks, outermost first, hang in finished ones: the first is one of them, what it held comes first
among what is below it, and the others hang in the rest of that. -/
def Hangs : List Frame → List Block → Prop
  | [], _ => True
  | f :: fs, bs =>
    ∃ block ∈ bs, f.Became block ∧ ∃ below, (f.block.children ++ below).Sublist block.children ∧ Hangs fs below

namespace Hangs

theorem append_of {fs gs gs' : List Frame} (h : ∀ bs, Hangs gs bs → Hangs gs' bs) :
    ∀ {bs : List Block}, Hangs (fs ++ gs) bs → Hangs (fs ++ gs') bs := by
  induction fs with
  | nil => exact fun hg => h _ hg
  | cons f fs ih =>
    rintro bs ⟨block, hmem, hbecame, below, hchildren, hbelow⟩
    exact ⟨block, hmem, hbecame, below, hchildren, ih hbelow⟩

/-- An open block hangs where it is. -/
theorem of_mem {f : Frame} {bs : List Block} (h : f.block ∈ bs) : Hangs [f] bs := by
  have hchildren : (f.block.children ++ []).Sublist f.block.children := by simp
  exact ⟨f.block, h, ⟨rfl, rfl, List.prefix_rfl⟩, [], hchildren, trivial⟩

/-- Before a block was attached to the one around it, both were open. -/
theorem of_attached {f g : Frame} {bs : List Block}
    (h : Hangs [{ g with block.children := g.block.children ++ [f.block] }] bs) : Hangs [g, f] bs := by
  obtain ⟨block, hmem, hbecame, below, hchildren, -⟩ := h
  refine ⟨block, hmem, hbecame, f.block :: below, ?_, of_mem List.mem_cons_self⟩
  simpa only [List.append_assoc, List.singleton_append] using hchildren

/-- Before it took more inlines, a block was open with fewer. -/
theorem of_inlines {f : Frame} {is : List Inline} {bs : List Block}
    (h : Hangs [{ f with block.inlines := f.block.inlines ++ is }] bs) : Hangs [f] bs := by
  obtain ⟨block, hmem, ⟨hkind, hliteral, hinlines⟩, below, hchildren, -⟩ := h
  exact ⟨block, hmem, ⟨hkind, hliteral, (List.prefix_append _ _).trans hinlines⟩, below, hchildren, trivial⟩

theorem of_cons {f g : Frame} {bs : List Block} (h : Hangs [f, g] bs) : Hangs [f] bs := by
  obtain ⟨block, hmem, hbecame, below, hchildren, -⟩ := h
  exact ⟨block, hmem, hbecame, below, hchildren, trivial⟩

/-- More blocks below the outermost one do no harm. -/
theorem of_children {fs : List Frame} {root root' : Block} (h : Hangs fs [root]) (hk : root'.kind = root.kind)
    (hl : root'.literal = root.literal) (hi : root'.inlines = root.inlines) (hc : root.children.Sublist root'.children) :
    Hangs fs [root'] := by
  cases fs with
  | nil => trivial
  | cons f fs =>
    obtain ⟨block, hmem, ⟨hkind, hliteral, hinlines⟩, below, hchildren, hbelow⟩ := h
    obtain rfl := List.mem_singleton.1 hmem
    exact ⟨root', List.mem_cons_self, ⟨hk.trans hkind, hl.trans hliteral, hi ▸ hinlines⟩, below, hchildren.trans hc,
      hbelow⟩

end Hangs

theorem repeat_succ {α : Type} (f : α → α) (n : Nat) (a : α) : (n + 1).repeat f a = n.repeat f (f a) := by
  induction n with
  | zero => rfl
  | succ n ih => exact congrArg f ih

namespace Builder

/-! ## The loops -/

theorem length_onInlines (b : Builder) (f : List Inline → List Inline) :
    (b.onInlines f).inlines.length = b.inlines.length := by
  obtain ⟨source, blocks, inlines, loose, starts⟩ := b
  rcases inlines with _ | ⟨i, is⟩
  · rcases blocks with _ | ⟨top, fs⟩
    · rfl
    · by_cases hc : top.block.kind.isContainer = true
      · simp [onInlines, hc]
      · simp [onInlines, hc]
  · rfl

theorem length_closeInline (b : Builder) : b.closeInline.inlines.length = b.inlines.length - 1 := by
  obtain ⟨source, blocks, inlines, loose, starts⟩ := b
  cases inlines with
  | nil => rfl
  | cons i is => exact length_onInlines ⟨source, blocks, is, loose, starts⟩ _

/-- Closes the innermost inline as long as one is open. -/
def closeInlines (b : Builder) : Builder :=
  if b.inlines.length = 0 then b else closeInlines b.closeInline
termination_by b.inlines.length
decreasing_by
  have hlength := length_closeInline b
  omega

/-- Closes the innermost block as long as another one than the document is open. -/
def closeBlocks (b : Builder) : Builder :=
  if b.blocks.length ≤ 1 then b else closeBlocks b.closeBlock
termination_by b.blocks.length
decreasing_by
  have hlength := length_closeBlock b
  omega

theorem repeat_closeInline (n : Nat) {b : Builder} (h : b.inlines.length = n) :
    n.repeat closeInline b = b.closeInlines := by
  induction n generalizing b with
  | zero =>
    rw [closeInlines, if_pos h]
    rfl
  | succ n ih =>
    have hlength := length_closeInline b
    rw [repeat_succ, closeInlines, if_neg (by omega)]
    exact ih (by omega)

theorem repeat_closeBlock (n : Nat) {b : Builder} (h : b.blocks.length - 1 = n) :
    n.repeat closeBlock b = b.closeBlocks := by
  induction n generalizing b with
  | zero =>
    rw [closeBlocks, if_pos (by omega)]
    rfl
  | succ n ih =>
    have hlength := length_closeBlock b
    rw [repeat_succ, closeBlocks, if_neg (by omega)]
    exact ih (by omega)

/-- The loops end where counting does. -/
theorem closeAll_eq (b : Builder) : b.closeAll = b.closeInlines.closeBlocks := by
  rw [closeAll, repeat_closeInline _ rfl, repeat_closeBlock _ rfl]

theorem closeBlocks_closeBlock (b : Builder) : b.closeBlock.closeBlocks = b.closeBlocks := by
  by_cases hlength : b.blocks.length ≤ 1
  · have hclose : b.closeBlock = b := by
      rcases hblocks : b.blocks with _ | ⟨f, _ | ⟨g, fs⟩⟩
      · rw [closeBlock, hblocks]
      · rw [closeBlock, hblocks]
      · simp [hblocks] at hlength
    rw [hclose]
  · rw [closeBlocks.eq_def b, if_neg hlength]

theorem closeBlocks_closeImplicit (b : Builder) : b.closeImplicit.closeBlocks = b.closeBlocks := by
  unfold closeImplicit
  split
  · exact b.closeBlocks_closeBlock
  · rfl

theorem Sound.closeInlines {b : Builder} (h : b.Sound) : b.closeInlines.Sound := by
  rw [← repeat_closeInline _ rfl]
  exact iterate (P := Sound) (fun _ => Sound.closeInline) h _

theorem Sound.closeBlocks {b : Builder} (h : b.Sound) : b.closeBlocks.Sound := by
  rw [← repeat_closeBlock _ rfl]
  exact iterate (P := Sound) (fun _ => Sound.closeBlock) h _

/-! ## Open inlines -/

/-- What open inlines become, innermost first, each closed into the one around it. -/
def nested (is : List InlineFrame) : List Inline :=
  is.foldl (fun cs i => i.wrapper.close (i.children ++ cs)) []

/-- The open inlines go into each other, and what they become goes where text goes when no inline is open. -/
theorem closeInlines_eq (b : Builder) :
    b.closeInlines =
      if b.inlines = [] then b else pushInlines { b with inlines := [] } (nested b.inlines) := by
  obtain ⟨source, blocks, inlines, loose, starts⟩ := b
  rcases inlines with _ | ⟨i, is⟩
  · rw [if_pos rfl, closeInlines]
    rfl
  · rw [if_neg (List.cons_ne_nil i is)]
    induction is generalizing i with
    | nil =>
      have hclosed : (pushInlines ⟨source, blocks, [], loose, starts⟩ (i.wrapper.close i.children)).inlines.length = 0 :=
        length_onInlines _ _
      rw [closeInlines, if_neg (by simp), closeInline, closeInlines, if_pos hclosed]
      simp [nested]
    | cons j is ih =>
      have hstep := ih { j with children := j.children ++ i.wrapper.close i.children }
      rw [closeInlines, if_neg (by simp)]
      refine Eq.trans hstep ?_
      simp [nested]

/-! ## Open blocks -/

/-- Closing the blocks hangs each below the one around it. -/
theorem hangs_closeBlocks {b : Builder} (h : b.blocks ≠ []) : Hangs b.blocks.reverse [b.closeBlocks.root] := by
  obtain ⟨source, blocks, inlines, loose, starts⟩ := b
  rcases blocks with _ | ⟨f, fs⟩
  · exact absurd rfl h
  · clear h
    induction fs generalizing f starts with
    | nil =>
      rw [closeBlocks, if_pos (by simp)]
      exact .of_mem List.mem_cons_self
    | cons g fs ih =>
      rw [closeBlocks, if_neg (by simp), List.reverse_cons, List.reverse_cons, List.append_assoc]
      refine Hangs.append_of (fun bs => .of_attached) ?_
      rw [← List.reverse_cons]
      exact ih _ _

/-- What hangs after the inlines are closed was there before. -/
theorem hangs_of_pushInlines {b : Builder} {is : List Inline} {bs : List Block} (hi : b.inlines = [])
    (h : Hangs (b.pushInlines is).blocks.reverse bs) : Hangs b.blocks.reverse bs := by
  obtain ⟨source, blocks, inlines, loose, starts⟩ := b
  simp only at hi
  subst hi
  rcases blocks with _ | ⟨f, fs⟩
  · exact h
  · by_cases hc : f.block.kind.isContainer = true
    · simp only [pushInlines, onInlines, hc, ite_true, List.reverse_cons, List.append_assoc] at h ⊢
      exact Hangs.append_of (fun bs => .of_cons) h
    · simp only [pushInlines, onInlines, hc, Bool.false_eq_true, ite_false, List.reverse_cons] at h ⊢
      exact Hangs.append_of (fun bs => .of_inlines) h

/-- What is open hangs in what all is closed to. -/
theorem hangs_closeAll {b : Builder} (h : b.Sound) : Hangs b.blocks.reverse [b.closeAll.root] := by
  rw [closeAll_eq]
  have hclosed := hangs_closeBlocks h.closeInlines.blocks_ne_nil
  by_cases hi : b.inlines = []
  · rw [closeInlines_eq, if_pos hi] at hclosed ⊢
    exact hclosed
  · rw [closeInlines_eq, if_neg hi] at hclosed ⊢
    exact hangs_of_pushInlines (b := { b with inlines := [] }) rfl hclosed

/-- When all is closed, the document is left. -/
theorem kind_root_closeAll {b : Builder} (h : b.Sound) : b.closeAll.root.kind = .document := by
  have hlength := length_closeAll b
  have hsound : b.closeAll.Sound := by
    rw [closeAll_eq]
    exact h.closeInlines.closeBlocks
  generalize b.closeAll = b' at hlength hsound
  obtain ⟨source, blocks, inlines, loose, starts⟩ := b'
  rcases blocks with _ | ⟨f, _ | ⟨g, fs⟩⟩
  · exact hsound.elim
  · exact Frame.IsRoot.kind hsound
  · simp at hlength

end Builder

theorem sublist_placeDefinitions (bs : List (Block × Nat)) (ds : List (Nat × Text)) :
    (bs.map Prod.fst).Sublist (placeDefinitions bs ds) := by
  induction bs generalizing ds with
  | nil => exact List.nil_sublist _
  | cons b bs ih =>
    obtain ⟨block, start⟩ := b
    rw [List.map_cons, placeDefinitions]
    exact ((ih _).cons_cons block).trans (List.sublist_append_right _ _)

namespace Builder

/-- Merging definitions changes the children of the document alone, and drops none. -/
theorem finish_eq {b : Builder} (h : b.Counted) (ds : List (Nat × Text)) :
    ∃ children, b.finish ds = { b.finish [] with children } ∧ (b.finish []).children.Sublist children := by
  have hroot : b.finish [] = b.closeAll.root := rfl
  rw [hroot]
  by_cases hds : ds.isEmpty = true
  · rw [List.isEmpty_iff.1 hds, hroot]
    generalize b.closeAll.root = root
    obtain ⟨kind, literal, children, inlines⟩ := root
    exact ⟨children, rfl, List.Sublist.refl _⟩
  · refine ⟨placeDefinitions (b.closeAll.root.children.zip b.closeAll.starts) ds, if_neg hds, ?_⟩
    have hsublist := sublist_placeDefinitions (b.closeAll.root.children.zip b.closeAll.starts) ds
    rwa [List.map_fst_zip (Nat.le_of_eq h.root_closeAll)] at hsublist

/-! ## The place that text goes to, by positions -/

/-- The position of the last element; nothing, when there is none. -/
def last? : Nat → Option Nat
  | 0 => none
  | n + 1 => some n

/-- Changes the inlines of a block that is found by its position from the outermost end. -/
def setInlines? (blocks : List Frame) (f : List Inline → List Inline) : Option (List Frame) := do
  let top ← last? blocks.length
  let frame ← blocks.reverse[top]?
  return (blocks.reverse.set top { frame with block.inlines := f frame.block.inlines }).reverse

/-- Changes the inlines that text goes to as `onInlines` does, but finds them by their position from the outermost
end; nothing, when a position is out of range or would be one below zero. -/
def onInlinesAt? (b : Builder) (f : List Inline → List Inline) : Option Builder :=
  match last? b.inlines.length with
  | some last => do
    let i ← b.inlines.reverse[last]?
    return { b with inlines := (b.inlines.reverse.set last { i with children := f i.children }).reverse }
  | none => do
    let top ← last? b.blocks.length
    let frame ← b.blocks.reverse[top]?
    let pushed : List Frame :=
      if frame.block.kind.isContainer then [⟨{ kind := .paragraph }, frame.start, true⟩] else []
    let blocks ← setInlines? (pushed ++ b.blocks) f
    return { b with blocks }

theorem getElem?_reverse_cons {α : Type} (a : α) (as : List α) : (a :: as).reverse[as.length]? = some a := by
  simp

theorem reverse_set_reverse_cons {α : Type} (a a' : α) (as : List α) :
    ((a :: as).reverse.set as.length a').reverse = a' :: as := by
  simp

theorem setInlines?_cons (top : Frame) (fs : List Frame) (f : List Inline → List Inline) :
    setInlines? (top :: fs) f = some ({ top with block.inlines := f top.block.inlines } :: fs) := by
  simp only [setInlines?, last?, List.length_cons, Option.bind_eq_bind, Option.bind_some, getElem?_reverse_cons,
    reverse_set_reverse_cons]
  rfl

/-- Where a block is open, no position is out of range. -/
theorem onInlinesAt?_eq {b : Builder} (h : b.blocks ≠ []) (f : List Inline → List Inline) :
    b.onInlinesAt? f = some (b.onInlines f) := by
  obtain ⟨source, blocks, inlines, loose, starts⟩ := b
  rcases inlines with _ | ⟨i, is⟩
  · rcases blocks with _ | ⟨top, fs⟩
    · exact absurd rfl h
    · simp only [onInlinesAt?, last?, List.length_nil, List.length_cons, Option.bind_eq_bind, Option.bind_some,
        getElem?_reverse_cons, onInlines]
      by_cases hc : top.block.kind.isContainer = true
      · simp only [hc, ite_true, List.singleton_append, setInlines?_cons, Option.bind_some]
        rfl
      · simp only [hc, Bool.false_eq_true, ite_false, List.nil_append, setInlines?_cons, Option.bind_some]
        rfl
  · simp only [onInlinesAt?, last?, List.length_cons, Option.bind_eq_bind, Option.bind_some, getElem?_reverse_cons,
      reverse_set_reverse_cons]
    rfl

/-! ## The state after any events -/

/-- What the open blocks of a builder are like. -/
structure Orderly (b : Builder) : Prop where
  /-- The outermost block is the document and no other is; each block below it has an offset. -/
  document : ∃ above root, b.blocks = above ++ [root] ∧ root.block.kind = .document ∧
    (∀ f ∈ above, f.block.kind ≠ .document) ∧ root.block.children.length = b.starts.length
  /-- Only the innermost block can be made for text. -/
  implicit_tail : ∀ f ∈ b.blocks.tail, f.implicit = false
  /-- It is then a paragraph and stands in a container. -/
  implicit_head : ∀ f fs, b.blocks = f :: fs → f.implicit = true →
    f.block.kind = .paragraph ∧ ∃ g gs, fs = g :: gs ∧ g.block.kind.isContainer = true
  /-- A block, open or attached, has a literal of segments when its kind uses one, else none. -/
  literals : ∀ f ∈ b.blocks, ∀ block ∈ f.block.preorder, block.isFit = true

theorem orderly_of_sound {b : Builder} (h : b.Sound) (hcounted : b.Counted) : b.Orderly where
  document := by
    obtain ⟨above, root, hsplit, hroot, habove⟩ := Stacked.document h
    refine ⟨above, root, hsplit, hroot, habove, ?_⟩
    rw [Counted, rootSize?, hsplit, List.getLast?_concat] at hcounted
    exact Option.some.inj hcounted
  implicit_tail := by
    obtain ⟨source, blocks, inlines, loose, starts⟩ := b
    cases blocks with
    | nil => exact h.elim
    | cons f fs => exact Stacked.implicit_tail h
  implicit_head := by
    rintro f fs hblocks himplicit
    rw [Sound, hblocks] at h
    cases fs with
    | nil => exact absurd (himplicit.symm.trans (Frame.IsRoot.reported h)) (by decide)
    | cons g gs => exact ⟨(h.1.implicit himplicit).1, g, gs, rfl, (h.1.implicit himplicit).2⟩
  literals := by
    intro f hf block hmem
    have hfit := Stacked.fit_of_mem h f hf
    rw [Block.preorder_eq] at hmem
    rcases List.mem_cons.1 hmem with rfl | hmem
    · exact hfit.own
    · exact (hfit.below block hmem).1

/-- **After any events the open blocks are in order**, so text finds its place by positions that are in range; the
loops that close what is open end, the open inlines go into each other and then where text goes, and whatever the
definitions are, a document is left in which each open block hangs, none of its blocks dropped. -/
theorem orderly_events (source : Text) (es : List (Event × Span)) :
    let b := (new source).events es
    b.Orderly ∧ (∀ f, b.onInlinesAt? f = some (b.onInlines f)) ∧ b.closeAll = b.closeInlines.closeBlocks ∧
      b.closeInlines = (if b.inlines = [] then b else pushInlines { b with inlines := [] } (nested b.inlines)) ∧
      ∀ ds, (b.finish ds).kind = .document ∧ Hangs b.blocks.reverse [b.finish ds] ∧
        (b.finish []).children.Sublist (b.finish ds).children := by
  intro b
  have hsound : b.Sound := (sound_new source).events es
  have hcounted : b.Counted := (counted_new source).events es
  refine ⟨orderly_of_sound hsound hcounted, onInlinesAt?_eq hsound.blocks_ne_nil, closeAll_eq b, closeInlines_eq b,
    fun ds => ?_⟩
  obtain ⟨children, hfinish, hsublist⟩ := finish_eq hcounted ds
  have hkind : (b.finish []).kind = .document := kind_root_closeAll hsound
  have hhangs : Hangs b.blocks.reverse [b.finish []] := hangs_closeAll hsound
  rw [hfinish]
  exact ⟨hkind, hhangs.of_children rfl rfl rfl hsublist, hsublist⟩

end Builder

end CommonMark
