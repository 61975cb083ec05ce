import CommonMark.Proofs.Kept
import CommonMark.Proofs.Readings
import Mathlib.Data.List.Chain

/-!
# Neighbouring texts

A text that comes after a text joins it, so no two texts are neighbours, whatever the events are and however deep the
inlines are in each other (`Inline.Joined`). Appending a text keeps this, as the text at the end can take it
(`Joined.appendText`), and so does appending anything that is no text (`Joined.concat`). Each operation of a builder
does nothing else with the inlines of all that is open (`Tidy`), so each event keeps it (`Tidy.event`), and so do all
events and closing what they left open (`joined_ofEvents`). Markup that a document cannot hold is the exception: what is
in it goes into the inlines around it as it is, a text next to a text (`not_joined_ofEvents_dissolved`).
-/

namespace CommonMark

/-! ## Sequences of inlines -/

namespace Inline

def isText : Inline → Bool
  | text _ => true
  | _ => false

/-- Whether inlines are a sequence itself, or stand somewhere inside one of its inlines. -/
inductive Within : List Inline → List Inline → Prop where
  | refl (is : List Inline) : Within is is
  | inside {is js cs : List Inline} {i : Inline} (mem : i ∈ is) (children : i.children? = some cs) (h : Within js cs) :
    Within js is

/-- Whether the texts of a sequence are merged: no two are neighbours, and each is made of segments that show
something. -/
structure Merged (is : List Inline) : Prop where
  apart : is.IsChain fun i j => ¬ (i.isText = true ∧ j.isText = true)
  segmented : ∀ l, text l ∈ is → ∃ c : Content, l = .segmented c ∧ c.Full

/-- Whether the texts of a sequence are merged, and of all sequences inside it. -/
def Joined (is : List Inline) : Prop := ∀ js, Within js is → Merged js

theorem joined_iff {is : List Inline} :
    Joined is ↔ Merged is ∧ ∀ i ∈ is, ∀ cs, i.children? = some cs → Joined cs := by
  constructor
  · intro h
    exact ⟨h is (.refl is), fun i hi cs hcs js hjs => h js (.inside hi hcs hjs)⟩
  · rintro ⟨hmerged, hbelow⟩ js hjs
    cases hjs with
    | refl => exact hmerged
    | inside hi hcs hjs => exact hbelow _ hi _ hcs js hjs

theorem joined_nil : Joined [] :=
  joined_iff.2 ⟨⟨List.isChain_nil, fun _ hl => nomatch hl⟩, fun _ hi => nomatch hi⟩

namespace Joined

variable {is : List Inline} {i : Inline}

/-- One more inline, unless it is a text after a text. -/
theorem append_singleton (h : Joined is) (hi : Joined [i])
    (hlast : ∀ j ∈ is.getLast?, ¬ (j.isText = true ∧ i.isText = true)) : Joined (is ++ [i]) := by
  obtain ⟨hmerged, hbelow⟩ := joined_iff.1 h
  obtain ⟨hmerged', hbelow'⟩ := joined_iff.1 hi
  refine joined_iff.2 ⟨⟨?_, fun l hl => ?_⟩, fun j hj => ?_⟩
  · refine List.isChain_append.2 ⟨hmerged.apart, List.isChain_singleton i, fun j hj i' hi' => ?_⟩
    obtain rfl : i = i' := Option.some_inj.1 hi'
    exact hlast j hj
  · rcases List.mem_append.1 hl with hl | hl
    · exact hmerged.segmented l hl
    · exact hmerged'.segmented l hl
  · rcases List.mem_append.1 hj with hj | hj
    · exact hbelow j hj
    · exact hbelow' j hj

/-- What is before the last inline, and the last one by itself. -/
theorem of_append_singleton (h : Joined (is ++ [i])) :
    Joined is ∧ Joined [i] ∧ ∀ j ∈ is.getLast?, ¬ (j.isText = true ∧ i.isText = true) := by
  obtain ⟨hmerged, hbelow⟩ := joined_iff.1 h
  obtain ⟨hinit, -, hlast⟩ := List.isChain_append.1 hmerged.apart
  refine ⟨joined_iff.2 ⟨⟨hinit, fun l hl => ?_⟩, fun j hj => ?_⟩,
    joined_iff.2 ⟨⟨List.isChain_singleton i, fun l hl => ?_⟩, fun j hj => ?_⟩, fun j hj => hlast j hj i rfl⟩
  · exact hmerged.segmented l (List.mem_append_left _ hl)
  · exact hbelow j (List.mem_append_left _ hj)
  · exact hmerged.segmented l (List.mem_append_right _ hl)
  · exact hbelow j (List.mem_append_right _ hj)

/-- An inline that is no text, with merged texts inside. -/
theorem singleton (hi : i.isText = false) (hbelow : ∀ cs, i.children? = some cs → Joined cs) : Joined [i] := by
  refine joined_iff.2 ⟨⟨List.isChain_singleton i, fun l hl => ?_⟩, fun j hj => ?_⟩
  · obtain rfl := List.mem_singleton.1 hl
    cases hi
  · obtain rfl := List.mem_singleton.1 hj
    exact hbelow

theorem singleton_text {c : Content} (hc : c.Full) : Joined [.text (.segmented c)] := by
  refine joined_iff.2 ⟨⟨List.isChain_singleton _, fun l hl => ?_⟩, fun j hj cs hcs => ?_⟩
  · obtain rfl := Inline.text.inj (List.mem_singleton.1 hl)
    exact ⟨c, rfl, hc⟩
  · obtain rfl := List.mem_singleton.1 hj
    cases hcs

theorem full {c : Content} (h : Joined [.text (.segmented c)]) : c.Full := by
  obtain ⟨c', heq, hc'⟩ := (h _ (.refl _)).segmented _ List.mem_cons_self
  obtain rfl := Literal.segmented.inj heq
  exact hc'

/-- What is no text can come anywhere. -/
theorem concat (h : Joined is) (hi : i.isText = false) (hbelow : ∀ cs, i.children? = some cs → Joined cs) :
    Joined (is ++ [i]) := by
  refine h.append_singleton (singleton hi hbelow) fun j _ htexts => ?_
  rw [hi] at htexts
  cases htexts.2

end Joined

end Inline

open Inline (Joined)

/-- A text goes into the segments of a text at the end, and comes as a new text where no such text is. -/
theorem appendText_cases (s : Segment) (is : List Inline) :
    (∃ init c, is = init ++ [.text (.segmented c)] ∧ appendText s is = init ++ [.text (.segmented (c.push s))]) ∨
      (∀ c, is.getLast? ≠ some (.text (.segmented c))) ∧ appendText s is = is ++ [.text (.single s)] := by
  fun_induction appendText s is with
  | case1 => exact .inr ⟨by simp, rfl⟩
  | case2 c => exact .inl ⟨[], c, rfl, rfl⟩
  | case3 i is hno ih =>
    rcases ih with ⟨init, c, rfl, happend⟩ | ⟨hlast, happend⟩
    · exact .inl ⟨i :: init, c, rfl, by rw [happend, List.cons_append]⟩
    · refine .inr ⟨fun c => ?_, by rw [happend, List.cons_append]⟩
      cases is with
      | nil =>
        intro heq
        exact hno c (Option.some_inj.1 heq) rfl
      | cons j js =>
        rw [List.getLast?_cons_cons]
        exact hlast c

/-- A text keeps what comes before it merged: where a text is last it has segments, which take one more. -/
theorem Inline.Joined.appendText {is : List Inline} (h : Joined is) (s : Segment) :
    Joined (CommonMark.appendText s is) := by
  rcases appendText_cases s is with ⟨init, c, rfl, happend⟩ | ⟨hlast, happend⟩
  · obtain ⟨hinit, hlast, hapart⟩ := h.of_append_singleton
    rw [happend]
    exact hinit.append_singleton (.singleton_text (hlast.full.push s)) hapart
  · have hempty : Content.Full {} := fun _ hs => nomatch hs
    rw [happend]
    refine h.append_singleton (.singleton_text (hempty.push s)) fun j hj htexts => ?_
    cases j with
    | text l =>
      obtain ⟨c, rfl, -⟩ := (h _ (.refl _)).segmented l (List.mem_of_mem_getLast? hj)
      exact hlast c hj
    | _ => cases htexts.1

/-! ## Blocks -/

namespace Block

/-- Whether the texts of a block are merged, and of all blocks below it. -/
structure Tidy (b : Block) : Prop where
  own : Joined b.inlines
  below : ∀ c ∈ preorders b.children, Joined c.inlines

theorem tidy_iff {b : Block} : b.Tidy ↔ ∀ c ∈ b.preorder, Joined c.inlines := by
  rw [preorder_eq, List.forall_mem_cons]
  exact ⟨fun h => ⟨h.own, h.below⟩, fun h => ⟨h.1, h.2⟩⟩

/-- A block that has just been opened holds nothing yet. -/
theorem tidy_of_nil {b : Block} (hi : b.inlines = []) (hc : b.children = []) : b.Tidy := by
  refine ⟨hi ▸ Inline.joined_nil, fun c hmem => ?_⟩
  rw [hc] at hmem
  cases hmem

theorem mem_preorders {c : Block} {bs : List Block} : c ∈ preorders bs ↔ ∃ b ∈ bs, c ∈ b.preorder := by
  induction bs with
  | nil => exact ⟨nofun, fun ⟨_, hb, _⟩ => nomatch hb⟩
  | cons b bs ih => rw [preorders, List.mem_append, ih, List.exists_mem_cons_iff]

theorem Tidy.attach {b : Block} (h : b.Tidy) {block : Block} (hblock : block.Tidy) :
    Tidy { b with children := b.children ++ [block] } := by
  refine ⟨h.own, fun c hmem => ?_⟩
  rw [preorders_append, preorders, preorders, List.append_nil] at hmem
  rcases List.mem_append.1 hmem with hmem | hmem
  · exact h.below c hmem
  · exact tidy_iff.1 hblock c hmem

end Block

/-! ## What is open -/

/-- Markup that a document can hold becomes one inline, in which what it marks is. -/
theorem Wrapper.close_eq {w : Wrapper} (h : w ≠ .dissolved) (cs : List Inline) :
    ∃ i, w.close cs = [i] ∧ i.isText = false ∧ i.children? = some cs := by
  cases w with
  | dissolved => exact absurd rfl h
  | emphasis | strong | link _ | image _ => exact ⟨_, rfl, rfl, rfl⟩

/-- Whether the texts of an open inline are merged, and it is one that a document can hold. -/
structure InlineFrame.Tidy (i : InlineFrame) : Prop where
  children : Joined i.children
  held : i.wrapper ≠ .dissolved

/-- Markup that a document cannot hold. -/
def Tag.isDissolved : Tag → Bool
  | strikethrough | superscript | subscript => true
  | _ => false

namespace Builder

/-- Whether the texts of all that is open are merged. -/
structure Tidy (b : Builder) : Prop where
  blocks : ∀ f ∈ b.blocks, f.block.Tidy
  inlines : ∀ i ∈ b.inlines, i.Tidy

theorem tidy_new (source : Text) : (new source).Tidy := by
  refine ⟨fun f hf => ?_, nofun⟩
  obtain rfl := List.mem_singleton.1 hf
  exact Block.tidy_of_nil rfl rfl

namespace Tidy

variable {b : Builder}

theorem attach (h : b.Tidy) {block : Block} (hblock : block.Tidy) (start : Nat) : (b.attach block start).Tidy := by
  obtain ⟨source, blocks, inlines, loose, starts⟩ := b
  cases blocks with
  | nil => exact h
  | cons f fs =>
    obtain ⟨hf, hfs⟩ := List.forall_mem_cons.1 h.blocks
    exact ⟨List.forall_mem_cons.2 ⟨hf.attach hblock, hfs⟩, h.inlines⟩

theorem openBlock (h : b.Tidy) {block : Block} (hi : block.inlines = []) (hc : block.children = []) (start : Nat) :
    (b.openBlock block start).Tidy :=
  ⟨List.forall_mem_cons.2 ⟨Block.tidy_of_nil hi hc, h.blocks⟩, h.inlines⟩

theorem closeBlock (h : b.Tidy) : b.closeBlock.Tidy := by
  obtain ⟨source, blocks, inlines, loose, starts⟩ := b
  rcases blocks with _ | ⟨f, _ | ⟨g, fs⟩⟩
  · exact h
  · exact h
  · obtain ⟨hf, hfs⟩ := List.forall_mem_cons.1 h.blocks
    exact attach (b := ⟨source, g :: fs, inlines, loose, starts⟩) ⟨hfs, h.inlines⟩ hf _

theorem closeImplicit (h : b.Tidy) : b.closeImplicit.Tidy := by
  unfold Builder.closeImplicit
  split
  · exact h.closeBlock
  · exact h

/-- A change that keeps texts merged may be made wherever text goes; a paragraph made for it starts empty. -/
theorem onInlines (h : b.Tidy) {f : List Inline → List Inline} (hf : ∀ is, Joined is → Joined (f is)) :
    (b.onInlines f).Tidy := by
  obtain ⟨source, blocks, inlines, loose, starts⟩ := b
  rcases inlines with _ | ⟨i, is⟩
  · rcases blocks with _ | ⟨top, fs⟩
    · exact h
    · obtain ⟨htop, hfs⟩ := List.forall_mem_cons.1 h.blocks
      by_cases hc : top.block.kind.isContainer = true
      · have hparagraph : Block.Tidy { kind := .paragraph, inlines := f [] } :=
          ⟨hf [] Inline.joined_nil, fun _ hmem => nomatch hmem⟩
        simp only [Builder.onInlines, hc, if_true]
        exact ⟨List.forall_mem_cons.2 ⟨hparagraph, h.blocks⟩, h.inlines⟩
      · simp only [Builder.onInlines, hc, Bool.false_eq_true, if_false]
        exact ⟨List.forall_mem_cons.2 ⟨⟨hf _ htop.own, htop.below⟩, hfs⟩, h.inlines⟩
  · obtain ⟨hi, his⟩ := List.forall_mem_cons.1 h.inlines
    exact ⟨h.blocks, List.forall_mem_cons.2 ⟨⟨hf _ hi.children, hi.held⟩, his⟩⟩

/-- Adding an inline that is no text and has merged texts inside. -/
theorem pushInline (h : b.Tidy) {i : Inline} (hi : i.isText = false)
    (hbelow : ∀ cs, i.children? = some cs → Joined cs) : (b.pushInlines [i]).Tidy :=
  h.onInlines fun _ his => his.concat hi hbelow

theorem pushLeaf (h : b.Tidy) {i : Inline} (hi : i.isText = false) (hleaf : i.children? = none) :
    (b.pushInlines [i]).Tidy := by
  refine h.pushInline hi fun cs hcs => ?_
  rw [hleaf] at hcs
  cases hcs

/-- A literal that takes a segment is no inline. -/
theorem getD_pushLiteral? {b' : Builder} (h : b.Tidy) (h' : b'.Tidy) (s : Segment) :
    ((b.pushLiteral? s).getD b').Tidy := by
  cases hpush : b.pushLiteral? s with
  | none => exact h'
  | some pushed =>
    obtain ⟨kind, c, children, inlines, start, implicit, fs, hblocks, rfl⟩ := exists_of_pushLiteral? hpush
    have hframes := h.blocks
    rw [hblocks] at hframes
    obtain ⟨htop, hfs⟩ := List.forall_mem_cons.1 hframes
    exact ⟨List.forall_mem_cons.2 ⟨⟨htop.own, htop.below⟩, hfs⟩, h.inlines⟩

theorem text (h : b.Tidy) (t : Text) (span : Span) : (b.text t span).Tidy :=
  h.getD_pushLiteral? (h.onInlines fun _ his => his.appendText _) _

theorem openInline (h : b.Tidy) {w : Wrapper} (hw : w ≠ .dissolved) : (b.openInline w).Tidy :=
  ⟨h.blocks, List.forall_mem_cons.2 ⟨⟨Inline.joined_nil, hw⟩, h.inlines⟩⟩

theorem closeInline (h : b.Tidy) : b.closeInline.Tidy := by
  obtain ⟨source, blocks, inlines, loose, starts⟩ := b
  cases inlines with
  | nil => exact h
  | cons i is =>
    obtain ⟨hi, his⟩ := List.forall_mem_cons.1 h.inlines
    obtain ⟨closed, hclose, htext, hchildren⟩ := Wrapper.close_eq hi.held i.children
    have hrest : Tidy ⟨source, blocks, is, loose, starts⟩ := ⟨h.blocks, his⟩
    simp only [Builder.closeInline, hclose]
    refine hrest.pushInline htext fun cs hcs => ?_
    obtain rfl : i.children = cs := Option.some_inj.1 (hchildren.symm.trans hcs)
    exact hi.children

theorem markLoose (h : b.Tidy) : b.markLoose.Tidy := by
  obtain ⟨source, blocks, inlines, loose, starts⟩ := b
  cases loose with
  | nil => exact h
  | cons l ls => exact ⟨h.blocks, h.inlines⟩

theorem settleList (h : b.Tidy) : b.settleList.Tidy := by
  obtain ⟨source, blocks, inlines, loose, starts⟩ := b
  unfold Builder.settleList
  simp only
  split
  · obtain ⟨htop, hfs⟩ := List.forall_mem_cons.1 h.blocks
    exact ⟨List.forall_mem_cons.2 ⟨⟨htop.own, htop.below⟩, hfs⟩, h.inlines⟩
  · exact ⟨h.blocks, h.inlines⟩

/-! ## Events -/

theorem start (h : b.Tidy) (span : Span) {tag : Tag} (htag : tag.isDissolved = false) : (b.start span tag).Tidy := by
  have hclose := h.closeImplicit
  cases tag with
  | paragraph =>
    simp only [Builder.start]
    split
    · exact hclose.markLoose.openBlock rfl rfl _
    · exact hclose.openBlock rfl rfl _
  | heading level =>
    simp only [Builder.start]
    split
    · exact hclose.openBlock rfl rfl _
    · exact hclose.openBlock rfl rfl _
  | codeBlock info => cases info <;> exact hclose.openBlock rfl rfl _
  | blockQuote | htmlBlock | item => exact hclose.openBlock rfl rfl _
  | list first =>
    have hloose : Tidy { b.closeImplicit with loose := false :: b.closeImplicit.loose } :=
      ⟨hclose.blocks, hclose.inlines⟩
    exact hloose.openBlock rfl rfl _
  | emphasis | strong | link _ _ | image _ _ => exact h.openInline nofun
  | strikethrough | superscript | subscript => cases htag
  | _ => exact h

theorem stop (h : b.Tidy) (tag : Tag) : (b.stop tag).Tidy := by
  cases tag with
  | paragraph | heading _ | blockQuote | codeBlock _ | htmlBlock => exact h.closeBlock
  | item => exact h.closeImplicit.closeBlock
  | list first => exact h.closeImplicit.settleList.closeBlock
  | emphasis | strong | link _ _ | image _ _ | strikethrough | superscript | subscript => exact h.closeInline
  | _ => exact h

/-- **Every event keeps neighbouring texts merged**, in every state, unless it opens markup that a document cannot
hold. -/
theorem event (h : b.Tidy) (span : Span) {e : Event} (he : ∀ tag, e = .start tag → tag.isDissolved = false) :
    (b.event span e).Tidy := by
  cases e with
  | start tag => exact h.start span (he tag rfl)
  | stop tag => exact h.stop tag
  | text t | inlineMath t | displayMath t => exact h.text t span
  | html t => exact h.getD_pushLiteral? (h.pushLeaf rfl rfl) _
  | code t | inlineHtml t | softBreak | hardBreak => exact h.pushLeaf rfl rfl
  | rule => exact h.closeImplicit.attach (Block.tidy_of_nil rfl rfl) _
  | footnoteReference _ | taskListMarker _ => exact h

theorem events (h : b.Tidy) {es : List (Event × Span)}
    (hes : ∀ e ∈ es, ∀ tag, e.1 = .start tag → tag.isDissolved = false) : (b.events es).Tidy := by
  induction es generalizing b with
  | nil => exact h
  | cons e es ih =>
    obtain ⟨he, hrest⟩ := List.forall_mem_cons.1 hes
    exact ih (h.event e.2 he) hrest

/-! ## The finished document -/

theorem closeAll (h : b.Tidy) : b.closeAll.Tidy :=
  iterate (P := Tidy) (fun _ => closeBlock) (iterate (P := Tidy) (fun _ => closeInline) h _) _

theorem root (h : b.Tidy) : b.root.Tidy := by
  obtain ⟨source, blocks, inlines, loose, starts⟩ := b
  cases blocks with
  | nil => exact Block.tidy_of_nil rfl rfl
  | cons f fs => exact h.blocks f List.mem_cons_self

end Tidy

end Builder

/-- Only definitions come between blocks. -/
theorem mem_placeDefinitions {c : Block} {bs : List (Block × Nat)} {ds : List (Nat × Text)}
    (h : c ∈ placeDefinitions bs ds) : c ∈ bs.map Prod.fst ∨ ∃ label, c = .definition label := by
  induction bs generalizing ds with
  | nil =>
    obtain ⟨d, -, rfl⟩ := List.mem_map.1 h
    exact .inr ⟨d.2, rfl⟩
  | cons b bs ih =>
    obtain ⟨block, start⟩ := b
    rw [placeDefinitions, List.mem_append, List.mem_cons] at h
    rcases h with hmem | rfl | hmem
    · obtain ⟨d, -, rfl⟩ := List.mem_map.1 hmem
      exact .inr ⟨d.2, rfl⟩
    · exact .inl List.mem_cons_self
    · exact (ih hmem).imp_left (List.mem_cons_of_mem _)

namespace Builder

theorem Tidy.finish {b : Builder} (h : b.Tidy) (ds : List (Nat × Text)) : (b.finish ds).Tidy := by
  have hroot := h.closeAll.root
  by_cases hds : ds.isEmpty = true
  · have hfinish : b.finish ds = b.closeAll.root := if_pos hds
    rw [hfinish]
    exact hroot
  · have hfinish : b.finish ds = { b.closeAll.root with
      children := placeDefinitions (b.closeAll.root.children.zip b.closeAll.starts) ds } := if_neg hds
    rw [hfinish]
    refine ⟨hroot.own, fun c hmem => ?_⟩
    obtain ⟨block, hblock, hc⟩ := Block.mem_preorders.1 hmem
    rcases mem_placeDefinitions hblock with hchild | ⟨label, rfl⟩
    · obtain ⟨⟨_, start⟩, hzip, rfl⟩ := List.mem_map.1 hchild
      exact hroot.below c (Block.mem_preorders.2 ⟨_, (List.of_mem_zip hzip).1, hc⟩)
    · exact Block.tidy_iff.1 (Block.tidy_of_nil rfl rfl) c hc

/-- **Neighbouring texts are merged and none is lost**: whatever the events are and in whatever order they come, when
none of them opens markup that a document cannot hold, the finished document has the texts that they carry, no inlines of
it hold two texts next to each other, in a block or inside an inline at any depth, and each text is made of segments that
show something. -/
theorem joined_ofEvents (source : Text) {es : List (Event × Span)} (ds : List (Nat × Text))
    (hes : ∀ e ∈ es, ∀ tag, e.1 = .start tag → tag.isDissolved = false) :
    (Block.ofEvents source es ds).segmentTexts.Perm (Event.textsOfAll es) ∧
      ∀ block ∈ (Block.ofEvents source es ds).preorder, ∀ is, Inline.Within is block.inlines → Inline.Merged is := by
  have hsound : ((new source).events es).Sound := (sound_new source).events es
  have hcounted : ((new source).events es).Counted := (counted_new source).events es
  have htidy : ((new source).events es).Tidy := (tidy_new source).events hes
  constructor
  · rw [Block.ofEvents, segmentTexts_finish hcounted]
    exact (perm_texts_closeAll hsound).trans (perm_texts_events (sound_new source) es)
  · exact Block.tidy_iff.1 (htidy.finish ds)

/-- Texts with a footnote mark between them, and two more in markup that is not ended. -/
theorem joined_ofEvents_unended :
    let span : Span := ⟨0, 0⟩
    let es : List (Event × Span) := [(.text ['a'], span), (.footnoteReference ['1'], span), (.text ['b'], span),
      (.start .strong, span), (.text ['c'], span), (.text ['d'], span)]
    (∀ e ∈ es, ∀ tag, e.1 = .start tag → tag.isDissolved = false) ∧
      (Block.ofEvents [] es []).children.map (·.inlines.length) = [2] ∧
      (Block.ofEvents [] es []).segmentTexts.Perm [['a'], ['b'], ['c'], ['d']] ∧
      ∀ block ∈ (Block.ofEvents [] es []).preorder, ∀ is, Inline.Within is block.inlines → Inline.Merged is := by
  intro span es
  have hes : ∀ e ∈ es, ∀ tag, e.1 = .start tag → tag.isDissolved = false := by
    intro e he tag htag
    simp only [es, List.mem_cons, List.not_mem_nil, or_false] at he
    rcases he with rfl | rfl | rfl | rfl | rfl | rfl <;> cases htag
    rfl
  exact ⟨hes, rfl, joined_ofEvents [] [] hes⟩

/-- A text in markup that a document cannot hold comes next to the text before it. -/
theorem not_joined_ofEvents_dissolved :
    let span : Span := ⟨0, 0⟩
    let es : List (Event × Span) :=
      [(.text ['a'], span), (.start .strikethrough, span), (.text ['b'], span), (.stop .strikethrough, span)]
    ∃ block ∈ (Block.ofEvents [] es []).preorder, ¬ Joined block.inlines := by
  intro span es
  let texts : List Inline := [.text (.single (.whole ['a'])), .text (.single (.whole ['b']))]
  have hpreorder : (Block.ofEvents [] es []).preorder.map (·.inlines) = [[], texts] := rfl
  have hmem : texts ∈ (Block.ofEvents [] es []).preorder.map (·.inlines) := by
    rw [hpreorder]
    exact List.mem_cons_of_mem _ List.mem_cons_self
  obtain ⟨block, hblock, hinlines⟩ := List.mem_map.1 hmem
  refine ⟨block, hblock, fun hjoined => ?_⟩
  rw [hinlines] at hjoined
  exact List.isChain_pair.1 (hjoined texts (.refl texts)).apart ⟨rfl, rfl⟩

end Builder

end CommonMark
