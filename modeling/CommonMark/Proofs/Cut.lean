import CommonMark.Proofs.Definitions
import CommonMark.Proofs.OpenLists

/-!
# Streams that are cut short

When the events of a stream stop early, `finish` closes what is open, and the ends that are missing would have closed
the same in the same order. But the end of a list also settles whether the list is tight, and `finish` settles nothing:
a list that is left open stays tight as it opened, also when an item of it has had a paragraph
(`not_ofEvents_append_ends_itemSample`). So the missing ends make the document that `finish` makes once each open list
is settled (`settleOpen`), and it is the document without them just when no open list has had a paragraph in an item
(`ofEvents_append_ends`). An end that is missing changes the settled builder by a block that closes early
(`Tracks.finish_stop`), and where a list is settled otherwise, the last blocks of the document show it
(`Tracks.finish_settleOpen_iff`).
-/

namespace CommonMark

/-! ## Cut streams -/

/-- Whether events, in what is open around them, leave open constructs whose ends make them well nested. -/
def Completes (p : Place) (tags : List Tag) (es : List (Event × Span)) : Prop :=
  ∃ inner, opened? tags es = some (inner ++ tags) ∧
    ∀ ends : List (Event × Span), ends.map Prod.fst = inner.map .stop → WellNested p (es ++ ends)

namespace Completes

variable {p q : Place} {tags : List Tag} {tag : Tag} {es : List (Event × Span)}

theorem nil (p : Place) (tags : List Tag) : Completes p tags [] := by
  refine ⟨[], rfl, fun ends hends => ?_⟩
  obtain rfl := List.map_eq_nil_iff.1 hends
  exact .nil p

theorem leaf (hp : p.isWithin (placeIn tags) = true) {e : Event} (he : p.takes e = true) (span : Span)
    (h : Completes p tags es) : Completes p tags ((e, span) :: es) := by
  obtain ⟨inner, hopened, hends⟩ := h
  refine ⟨inner, ?_, fun ends hmap => .leaf span he (hends ends hmap)⟩
  rw [opened?, openedAfter?_of_takes (Place.takes_of_isWithin hp he)]
  exact hopened

/-- A construct may be cut inside; its own end is then the last that is missing. -/
theorem inside {opening : Span} (hstart : (placeIn tags).takesStart tag = true)
    (hnode : ∀ (closing : Span) {content : List (Event × Span)}, WellNested q content →
      WellNested p ((.start tag, opening) :: (content ++ [(.stop tag, closing)])))
    (h : Completes q (tag :: tags) es) : Completes p tags ((.start tag, opening) :: es) := by
  obtain ⟨inner, hopened, hends⟩ := h
  refine ⟨inner ++ [tag], ?_, fun ends hmap => ?_⟩
  · simpa [opened?, openedAfter?, hstart] using hopened
  · rw [List.map_append, List.map_eq_append_iff] at hmap
    obtain ⟨ends, last, rfl, hmap, hlast⟩ := hmap
    obtain ⟨⟨e, closing⟩, rfl, he⟩ := List.map_eq_singleton_iff.1 hlast
    obtain rfl : e = .stop tag := he
    simpa using hnode closing (hends ends hmap)

/-- Or it is cut after it has ended. -/
theorem after {tag' : Tag} {opening closing : Span} {content : List (Event × Span)}
    (hstart : (placeIn tags).takesStart tag = true) (htag : tag'.bare = tag.bare)
    (hcontent : opened? (tag :: tags) content = some (tag :: tags))
    (hnode : ∀ {es}, WellNested p es →
      WellNested p ((.start tag, opening) :: (content ++ (.stop tag', closing) :: es)))
    (h : Completes p tags es) :
    Completes p tags ((.start tag, opening) :: (content ++ (.stop tag', closing) :: es)) := by
  obtain ⟨inner, hopened, hends⟩ := h
  refine ⟨inner, ?_, fun ends hmap => ?_⟩
  · rw [opened?_node opening closing es hstart htag hcontent]
    exact hopened
  · simpa using hnode (hends ends hmap)

/-- Where a construct and what comes after it can be cut. -/
theorem node {tag' : Tag} {opening closing : Span} {content before rest : List (Event × Span)}
    (hes : before ++ rest = (.start tag, opening) :: (content ++ (.stop tag', closing) :: es))
    (hstart : (placeIn tags).takesStart tag = true) (htag : tag'.bare = tag.bare)
    (hcontent : WellNested q content) (hopened : opened? (tag :: tags) content = some (tag :: tags))
    (hnode : ∀ {tag' : Tag} (closing : Span) {content es : List (Event × Span)}, tag'.bare = tag.bare →
      WellNested q content → WellNested p es →
        WellNested p ((.start tag, opening) :: (content ++ (.stop tag', closing) :: es)))
    (hinside : ∀ {before rest}, before ++ rest = content → Completes q (tag :: tags) before)
    (hafter : ∀ {before rest}, before ++ rest = es → Completes p tags before) : Completes p tags before := by
  have hcut : ∀ {before rest}, before ++ rest = content → Completes p tags ((.start tag, opening) :: before) :=
    fun hbefore => (hinside hbefore).inside hstart fun closing _ hcontent => hnode closing rfl hcontent (.nil p)
  rcases List.append_eq_cons_iff.1 hes with ⟨rfl, -⟩ | ⟨before, rfl, hrest⟩
  · exact .nil p tags
  · rcases List.append_eq_append_iff.1 hrest with ⟨ended, rfl, hended⟩ | ⟨rest, hbefore, -⟩
    · rcases List.append_eq_cons_iff.1 hended.symm with ⟨rfl, -⟩ | ⟨before, rfl, hlater⟩
      · rw [List.append_nil]
        exact hcut (List.append_nil content)
      · exact (hafter hlater.symm).after hstart htag hopened (hnode closing htag hcontent)
    · exact hcut hbefore.symm

end Completes

/-- **A well nested stream that is cut anywhere is well nested again when what it leaves open is ended**, innermost
first. -/
theorem completes_of_wellNested {p : Place} {es : List (Event × Span)} (h : WellNested p es) {tags : List Tag}
    (hp : p.isWithin (placeIn tags) = true) {before rest : List (Event × Span)} (hes : before ++ rest = es) :
    Completes p tags before := by
  induction h generalizing tags before rest with
  | nil p =>
    obtain ⟨rfl, -⟩ := List.append_eq_nil_iff.1 hes
    exact .nil p tags
  | leaf span he _ ih =>
    rcases List.append_eq_cons_iff.1 hes with ⟨rfl, -⟩ | ⟨before, rfl, hrest⟩
    · exact .nil _ tags
    · exact (ih hp hrest.symm).leaf hp he span
  | block opening closing hb hq htag hcontent _ ihcontent ih =>
    have hstart := Place.takesStart_of_isWithin hp ((takesStart_block hq _).trans hb)
    have hwithin := Place.isWithin_of_eq (placeIn_block hq tags)
    exact .node hes hstart htag hcontent (opened?_of_wellNested hcontent hwithin)
      (fun closing => .block opening closing hb hq) (ihcontent hwithin) (ih hp)
  | markup opening closing ht hm htag hcontent _ ihcontent ih =>
    have hstart := Place.takesStart_of_isWithin hp ((takesStart_markup hm _).trans ht)
    have hwithin := Place.isWithin_of_eq (placeIn_markup hm tags)
    exact .node hes hstart htag hcontent (opened?_of_wellNested hcontent hwithin)
      (fun closing => .markup opening closing ht hm) (ihcontent hwithin) (ih hp)
  | other opening closing hlines hq hm htag hcontent _ ihcontent ih =>
    have hstart := Place.takesStart_of_isWithin hp ((takesStart_other hq hm _).trans (decide_eq_true hlines))
    have hwithin := placeIn_other hq hm tags ▸ Place.isWithin_besides hp
    exact .node hes hstart htag hcontent (opened?_of_wellNested hcontent hwithin)
      (fun closing => .other opening closing hlines hq hm) (ihcontent hwithin) (ih hp)

/-! ## Settling the lists that are open -/

namespace BlockKind

/-- What a kind is once a list is settled by the first of some flags. -/
def settle (loose : List Bool) : BlockKind → BlockKind
  | list style _ => list style (!loose.headD false)
  | k => k

/-- The flags of the lists around a block. -/
def flagsAround (loose : List Bool) : BlockKind → List Bool
  | list _ _ => loose.tail
  | _ => loose

theorem isContainer_settle (loose : List Bool) (k : BlockKind) : (k.settle loose).isContainer = k.isContainer := by
  cases k <;> rfl

theorem settle_of_list?_eq_none {k : BlockKind} (h : k.list? = none) (loose : List Bool) :
    k.settle loose = k ∧ k.flagsAround loose = loose := by
  cases k with
  | list style tight => cases h
  | _ => exact ⟨rfl, rfl⟩

end BlockKind

/-- Open blocks, innermost first, with each list settled by its flag. -/
def settleFrames : List Bool → List Frame → List Frame
  | _, [] => []
  | loose, f :: fs =>
    { f with block.kind := f.block.kind.settle loose } :: settleFrames (f.block.kind.flagsAround loose) fs

/-- Only lists are settled. -/
theorem settleFrames_cons {f : Frame} (h : f.block.kind.list? = none) (loose : List Bool) (fs : List Frame) :
    settleFrames loose (f :: fs) = f :: settleFrames loose fs := by
  obtain ⟨⟨kind, literal, children, inlines⟩, start, implicit⟩ := f
  obtain ⟨hkind, hflags⟩ := BlockKind.settle_of_list?_eq_none h loose
  simp only [settleFrames, hkind, hflags]

/-- Lists that opened as tight stay as they are when no flag is raised. -/
theorem settleFrames_eq_self {fs : List Frame} {loose : List Bool} (hloose : ∀ l ∈ loose, l = false)
    (htight : ∀ f ∈ fs, ∀ {style tight}, f.block.kind = .list style tight → tight = true) :
    settleFrames loose fs = fs := by
  induction fs generalizing loose with
  | nil => rfl
  | cons f fs ih =>
    have htight' : ∀ g ∈ fs, ∀ {style tight}, g.block.kind = .list style tight → tight = true :=
      fun g hg => htight g (List.mem_cons_of_mem f hg)
    cases hlist : f.block.kind.list? with
    | none => rw [settleFrames_cons hlist, ih hloose htight']
    | some l =>
      obtain ⟨⟨kind, literal, children, inlines⟩, start, implicit⟩ := f
      cases kind with
      | list style tight =>
        have htrue : tight = true := htight _ List.mem_cons_self rfl
        have hfirst : loose.headD false = false := by
          cases loose with
          | nil => rfl
          | cons l ls => exact hloose l List.mem_cons_self
        subst htrue
        rw [settleFrames, BlockKind.flagsAround, ih (fun l hl => hloose l (List.mem_of_mem_tail hl)) htight']
        simp only [BlockKind.settle, hfirst, Bool.not_false]
      | _ => cases hlist

theorem length_settleFrames (loose : List Bool) (fs : List Frame) : (settleFrames loose fs).length = fs.length := by
  induction fs generalizing loose with
  | nil => rfl
  | cons f fs ih => rw [settleFrames, List.length_cons, List.length_cons, ih]

theorem isEmpty_settleFrames (loose : List Bool) (fs : List Frame) : (settleFrames loose fs).isEmpty = fs.isEmpty := by
  cases fs <;> rfl

namespace Builder

/-- A builder with each open list settled as its end would settle it. -/
def settleOpen (b : Builder) : Builder := { b with blocks := settleFrames b.loose b.blocks, loose := [] }

variable {b : Builder}

theorem settleOpen_attach (b : Builder) (block : Block) (start : Nat) :
    (b.attach block start).settleOpen = b.settleOpen.attach block start := by
  obtain ⟨source, blocks, inlines, loose, starts⟩ := b
  cases blocks with
  | nil => rfl
  | cons f fs => simp only [settleOpen, attach, settleFrames, isEmpty_settleFrames]

/-- A block that is no list closes as it would have. -/
theorem settleOpen_closeBlock (h : ∀ f ∈ b.blocks.head?, f.block.kind.list? = none) :
    b.closeBlock.settleOpen = b.settleOpen.closeBlock := by
  obtain ⟨source, blocks, inlines, loose, starts⟩ := b
  rcases blocks with _ | ⟨f, _ | ⟨g, fs⟩⟩
  · rfl
  · rfl
  · have hattach := settleOpen_attach ⟨source, g :: fs, inlines, loose, starts⟩ f.block f.start
    refine Eq.trans hattach ?_
    simp only [settleOpen, closeBlock, settleFrames_cons (h f rfl)]
    rfl

theorem settleOpen_closeImplicit (h : b.Sound) : b.closeImplicit.settleOpen = b.settleOpen.closeImplicit := by
  have hhead : b.settleOpen.blocks.head?.any (·.implicit) = b.blocks.head?.any (·.implicit) := by
    obtain ⟨source, blocks, inlines, loose, starts⟩ := b
    cases blocks <;> rfl
  unfold closeImplicit
  rw [hhead]
  split
  · rename_i himplicit
    refine settleOpen_closeBlock fun f hf => ?_
    rw [Option.mem_def.1 hf, Option.any_some] at himplicit
    rw [kind_of_implicit h (List.mem_of_mem_head? hf) himplicit]
    rfl
  · rfl

/-- The end of a list settles it, and then closes it. -/
theorem settleOpen_settleList {f g : Frame} {fs : List Frame} (hblocks : b.blocks = f :: g :: fs)
    (hf : f.block.kind.list?.isSome = true) : b.settleList.closeBlock.settleOpen = b.settleOpen.closeBlock := by
  obtain ⟨source, blocks, inlines, loose, starts⟩ := b
  obtain ⟨⟨kind, literal, children, inlines'⟩, start, implicit⟩ := f
  simp only at hblocks
  subst hblocks
  cases kind with
  | list style tight =>
    exact settleOpen_attach ⟨source, g :: fs, inlines, loose.tail, starts⟩
      ⟨.list style (!loose.headD false), literal, children, inlines'⟩ start
  | _ => cases hf

theorem settleOpen_onInlines (b : Builder) (f : List Inline → List Inline) :
    (b.onInlines f).settleOpen = b.settleOpen.onInlines f := by
  obtain ⟨source, blocks, inlines, loose, starts⟩ := b
  rcases inlines with _ | ⟨i, is⟩
  · rcases blocks with _ | ⟨top, fs⟩
    · rfl
    · by_cases hc : top.block.kind.isContainer = true
      · simp only [onInlines, settleOpen, settleFrames, BlockKind.isContainer_settle, hc, ite_true]
        rfl
      · simp [onInlines, settleOpen, settleFrames, hc, BlockKind.isContainer_settle]
  · rfl

theorem settleOpen_closeInline (b : Builder) : b.closeInline.settleOpen = b.settleOpen.closeInline := by
  obtain ⟨source, blocks, inlines, loose, starts⟩ := b
  cases inlines with
  | nil => rfl
  | cons i is => exact settleOpen_onInlines ⟨source, blocks, is, loose, starts⟩ _

/-! ## Ends that are missing -/

theorem finish_closeInline (b : Builder) (ds : List (Nat × Text)) : b.closeInline.finish ds = b.finish ds := by
  have hclosed : b.closeInline.closeAll = b.closeAll := by
    rw [closeAll_eq, closeAll_eq]
    congr 1
    by_cases hlength : b.inlines.length = 0
    · have hinlines : b.inlines = [] := List.length_eq_zero_iff.1 hlength
      rw [closeInline, hinlines]
    · rw [closeInlines.eq_def b, if_neg hlength]
  rw [finish, finish, hclosed]

/-- Without open inlines, blocks may be closed before all is. -/
theorem finish_of_closeBlocks {b' : Builder} (h : b.inlines = []) (h' : b'.inlines = [])
    (hclosed : b'.closeBlocks = b.closeBlocks) (ds : List (Nat × Text)) : b'.finish ds = b.finish ds := by
  have hall : b'.closeAll = b.closeAll := by
    rw [closeAll_eq, closeAll_eq, closeInlines_eq, closeInlines_eq, if_pos h, if_pos h', hclosed]
  rw [finish, finish, hall]

theorem closeBlock_withLoose (b : Builder) (loose : List Bool) :
    { b with loose }.closeBlock = { b.closeBlock with loose } := by
  obtain ⟨source, blocks, inlines, loose', starts⟩ := b
  rcases blocks with _ | ⟨f, _ | ⟨g, fs⟩⟩ <;> rfl

theorem closeInline_withLoose (b : Builder) (loose : List Bool) :
    { b with loose }.closeInline = { b.closeInline with loose } := by
  obtain ⟨source, blocks, inlines, loose', starts⟩ := b
  rcases inlines with _ | ⟨i, _ | ⟨j, is⟩⟩
  · rfl
  · rcases blocks with _ | ⟨top, fs⟩
    · rfl
    · by_cases hc : top.block.kind.isContainer = true <;> simp [closeInline, pushInlines, onInlines, hc]
  · rfl

theorem repeat_withLoose {f : Builder → Builder} {loose : List Bool}
    (hf : ∀ b : Builder, f { b with loose } = { f b with loose }) (n : Nat) (b : Builder) :
    n.repeat f { b with loose } = { n.repeat f b with loose } := by
  induction n with
  | zero => rfl
  | succ n ih => rw [Nat.repeat, Nat.repeat, ih, hf]

/-- What is known of the lists makes no difference to how all is closed. -/
theorem finish_withLoose (b : Builder) (loose : List Bool) (ds : List (Nat × Text)) :
    { b with loose }.finish ds = b.finish ds := by
  have hclosed : { b with loose }.closeAll = { b.closeAll with loose } := by
    simp only [closeAll, repeat_withLoose fun b => closeInline_withLoose b loose,
      repeat_withLoose fun b => closeBlock_withLoose b loose]
  rw [finish, finish, hclosed]

namespace Tracks

variable {tag : Tag} {tags : List Tag} {loose : List Bool} {pending : Bool}

/-- Where no flag is raised, there is nothing to settle. -/
theorem finish_settleOpen (h : Tracks tags loose b) (hsound : b.Sound) (hloose : ∀ l ∈ loose, l = false)
    (ds : List (Nat × Text)) : b.settleOpen.finish ds = b.finish ds := by
  rw [settleOpen, settleFrames_eq_self (h.flags ▸ hloose) fun f hf => h.tight hsound hf]
  exact finish_withLoose b [] ds

/-- The end of a block closes it, and in an item or a list the paragraph made for text before it. -/
theorem settleOpen_stop (h : Tracks (tag :: tags) loose b) (hsound : b.Sound) (hq : tag.content?.isSome = true) :
    (b.stop tag).settleOpen = b.settleOpen.closeBlock ∨
      (b.stop tag).settleOpen = b.settleOpen.closeImplicit.closeBlock := by
  have hclosed := h.closeImplicit hsound
  rw [← settleOpen_closeImplicit hsound]
  cases tag with
  | paragraph | heading _ | blockQuote | codeBlock _ | htmlBlock =>
    exact .inl (settleOpen_closeBlock (h.list?_head hsound hq (by simp [Tag.bare])))
  | item => exact .inr (settleOpen_closeBlock (hclosed.list?_head hsound.closeImplicit hq (by simp [Tag.bare])))
  | list first =>
    obtain ⟨f, fs, hblocks, hopener⟩ := hclosed.head hsound.closeImplicit hsound.reported_closeImplicit
    have hlist : f.block.kind.list?.isSome = true := list?_of_opener? hopener
    have hstacked : Stacked (f :: fs) := hblocks ▸ hsound.closeImplicit
    cases fs with
    | nil =>
      rw [Frame.IsRoot.kind hstacked] at hlist
      cases hlist
    | cons g fs => exact .inr (settleOpen_settleList hblocks hlist)
  | _ => cases hq

/-- **An end that is missing makes no difference once the open lists are settled.** -/
theorem finish_stop (h : Tracks (tag :: tags) loose b) (hfollows : Follows (tag :: tags) pending b)
    (ds : List (Nat × Text)) : (b.stop tag).settleOpen.finish ds = b.settleOpen.finish ds := by
  cases hq : tag.content? with
  | none =>
    cases hm : tag.isMarkup with
    | true => rw [stop_markup b hm, settleOpen_closeInline, finish_closeInline]
    | false => rw [stop_other b hq hm]
  | some q =>
    -- around a block no markup is open
    have hinlines : b.settleOpen.inlines = [] := by
      have hplace : (placeIn tags).hasBlocks = true := takesStart_block hq _ ▸ hfollows.proper.1
      have hlength := hfollows.inlines
      rw [List.countP_cons, (containers_of_hasBlocks hfollows.proper.2 hplace).2,
        Tag.isMarkup_of_content? hq] at hlength
      exact List.length_eq_zero_iff.1 hlength
    rcases h.settleOpen_stop hfollows.sound (Option.isSome_of_eq_some hq) with hstop | hstop
    · rw [hstop]
      refine finish_of_closeBlocks hinlines ?_ (closeBlocks_closeBlock _) ds
      rw [inlines_closeBlock, hinlines]
    · rw [hstop]
      refine finish_of_closeBlocks hinlines ?_ ?_ ds
      · rw [inlines_closeBlock, inlines_closeImplicit, hinlines]
      · rw [closeBlocks_closeBlock, closeBlocks_closeImplicit]

/-- **So it is with all that are missing.** -/
theorem finish_stops (h : Tracks tags loose b) (hfollows : Follows tags pending b) {ends : List (Event × Span)}
    (hends : ends.map Prod.fst = tags.map .stop) (hsettles : settles pending ends = true) (ds : List (Nat × Text)) :
    (b.events ends).finish ds = b.settleOpen.finish ds := by
  induction tags generalizing loose pending b ends with
  | nil =>
    obtain rfl := List.map_eq_nil_iff.1 hends
    have hloose : ∀ l ∈ loose, l = false := by
      rw [List.length_eq_zero_iff.1 h.length]
      exact List.forall_mem_nil _
    exact (h.finish_settleOpen hfollows.sound hloose ds).symm
  | cons tag tags ih =>
    obtain ⟨⟨e, span⟩, ends, rfl, he, hrest⟩ := List.map_eq_cons_iff.1 hends
    obtain rfl : e = .stop tag := he
    simp only [settles, Bool.and_eq_true] at hsettles
    have hquote : tag = .blockQuote → pending = false := by
      rintro rfl
      simpa using hsettles.1
    rw [← h.finish_stop hfollows]
    exact ih (h.stop hfollows rfl hquote) (hfollows.stop rfl hquote) hrest hsettles.2

end Tracks

end Builder

/-! ## What a list that is left open shows of its end -/

/-- The kinds of a block, of the last block in it, and so on as many levels below it as there are. -/
def Block.lastKinds : Nat → Block → List BlockKind
  | 0, b => [b.kind]
  | n + 1, b => b.kind :: b.children.getLast?.elim [] (lastKinds n)

namespace Builder

/-- The open blocks are the last ones on their levels in the finished document. -/
theorem lastKinds_closeBlocks (n : Nat) {b : Builder} {f : Frame} {fs : List Frame} (h : b.blocks = f :: fs) :
    b.closeBlocks.root.lastKinds (fs.length + n) = fs.reverse.map (·.block.kind) ++ f.block.lastKinds n := by
  induction fs generalizing b f n with
  | nil =>
    rw [closeBlocks, if_pos (by simp [h])]
    simp [root, h]
  | cons g fs ih =>
    have hblocks : b.closeBlock.blocks = { g with block.children := g.block.children ++ [f.block] } :: fs := by
      rw [closeBlock, h]
      rfl
    have hrest := ih (n + 1) hblocks
    rw [closeBlocks_closeBlock] at hrest
    have hlength : (g :: fs).length + n = fs.length + (n + 1) := by
      rw [List.length_cons]
      omega
    rw [hlength, hrest]
    simp [Block.lastKinds]

theorem kinds_eq_of_closeBlocks {b b' : Builder} (hlength : b'.blocks.length = b.blocks.length)
    (h : b'.closeBlocks.root = b.closeBlocks.root) :
    b'.blocks.map (·.block.kind) = b.blocks.map (·.block.kind) := by
  rcases hblocks : b.blocks with _ | ⟨f, fs⟩
  · rw [hblocks] at hlength
    rw [List.length_eq_zero_iff.1 hlength]
  · rcases hblocks' : b'.blocks with _ | ⟨f', fs'⟩
    · simp [hblocks, hblocks'] at hlength
    · have hfs : fs'.length = fs.length := by simpa [hblocks, hblocks'] using hlength
      have hlast := lastKinds_closeBlocks 0 hblocks
      have hlast' := lastKinds_closeBlocks 0 hblocks'
      rw [hfs, h, hlast] at hlast'
      have hreverse := congrArg List.reverse hlast'
      simpa [Block.lastKinds] using hreverse.symm

end Builder

/-- Lists that opened as tight stay as they are only when no flag is raised. -/
theorem eq_false_of_settleFrames {fs : List Frame} {loose : List Bool}
    (hlength : loose.length = fs.countP (·.block.kind.list?.isSome))
    (htight : ∀ f ∈ fs, ∀ {style tight}, f.block.kind = .list style tight → tight = true)
    (h : (settleFrames loose fs).map (·.block.kind) = fs.map (·.block.kind)) : ∀ l ∈ loose, l = false := by
  induction fs generalizing loose with
  | nil =>
    obtain rfl := List.length_eq_zero_iff.1 hlength
    exact List.forall_mem_nil _
  | cons f fs ih =>
    have htight' : ∀ g ∈ fs, ∀ {style tight}, g.block.kind = .list style tight → tight = true :=
      fun g hg => htight g (List.mem_cons_of_mem f hg)
    rw [settleFrames, List.map_cons, List.map_cons, List.cons.injEq] at h
    rw [List.countP_cons] at hlength
    cases hkind : f.block.kind with
    | list style tight =>
      cases loose with
      | nil => simp [hkind, BlockKind.list?] at hlength
      | cons l ls =>
        have htrue : tight = true := htight f List.mem_cons_self hkind
        obtain ⟨hhead, hrest⟩ := h
        have hl : l = false := by simpa [hkind, BlockKind.settle, htrue] using hhead
        have hls : ls.length = fs.countP (·.block.kind.list?.isSome) := by
          simpa [hkind, BlockKind.list?] using hlength
        intro l' hl'
        rcases List.mem_cons.1 hl' with rfl | hl'
        · exact hl
        · refine ih hls htight' ?_ l' hl'
          simpa [hkind, BlockKind.flagsAround] using hrest
    | _ =>
      refine ih ?_ htight' ?_
      · simpa [hkind, BlockKind.list?] using hlength
      · simpa [hkind, BlockKind.flagsAround] using h.2

namespace Builder

/-- Where the trees of two builders are the same, so they are without the definitions. -/
theorem finish_nil_eq {b b' : Builder} (h : b.Counted ∧ b.Undefined) (h' : b'.Counted ∧ b'.Undefined)
    {ds : List (Nat × Text)} (heq : b'.finish ds = b.finish ds) : b'.finish [] = b.finish [] := by
  have hplain : ∀ {b : Builder}, b.Counted ∧ b.Undefined →
      { b.finish ds with children := (b.finish ds).children.filter (!·.kind.isDefinition) } = b.finish [] := by
    rintro b ⟨hcounted, hundefined⟩
    obtain ⟨children, hfinish, -⟩ := finish_eq hcounted ds
    rw [filter_children_finish hcounted hundefined, hfinish]
    generalize b.finish [] = root
    obtain ⟨kind, literal, children, inlines⟩ := root
    rfl
  rw [← hplain h, ← hplain h', heq]

theorem settleOpen_closeInlines (b : Builder) : b.closeInlines.settleOpen = b.settleOpen.closeInlines := by
  have hrepeat : ∀ n : Nat, (n.repeat closeInline b).settleOpen = n.repeat closeInline b.settleOpen := by
    intro n
    induction n with
    | zero => rfl
    | succ n ih => rw [Nat.repeat, Nat.repeat, settleOpen_closeInline, ih]
  rw [← repeat_closeInline _ rfl, ← repeat_closeInline _ rfl, hrepeat]
  rfl

/-- The tree shows each flag that is raised. -/
theorem Tracks.finish_settleOpen_iff {tags : List Tag} {loose : List Bool} {b : Builder} (h : Tracks tags loose b)
    (hsound : b.Sound) : b.settleOpen.finish [] = b.finish [] ↔ ∀ l ∈ loose, l = false := by
  constructor
  · intro heq
    have hclosed : b.closeInlines.settleOpen.closeBlocks.root = b.closeInlines.closeBlocks.root := by
      rw [settleOpen_closeInlines, ← closeAll_eq, ← closeAll_eq]
      exact heq
    have hlength : b.closeInlines.settleOpen.blocks.length = b.closeInlines.blocks.length := length_settleFrames _ _
    have hkinds := kinds_eq_of_closeBlocks hlength hclosed
    have hflags : b.closeInlines.loose = loose := h.closeInlines.flags
    rw [settleOpen, hflags] at hkinds
    exact eq_false_of_settleFrames (h.closeInlines.count hsound.closeInlines)
      (fun f hf => h.closeInlines.tight hsound.closeInlines hf) hkinds
  · exact fun hloose => h.finish_settleOpen hsound hloose []

end Builder

open Builder

/-- **A stream that is cut short gives what it would give with the ends that are missing**, but that lists left open
are not settled: the missing ends make the document that finishing makes once they are. It is the one without the
missing ends just when none of these lists has had a paragraph in an item. No quote may end right after running text
directly in it, as none does in a well nested stream, wherever it is cut. -/
theorem ofEvents_append_ends (source : Text) (ds : List (Nat × Text)) (before : List (Event × Span)) :
    (∀ rest, WellNested .blocks (before ++ rest) → ∃ tags, opened? [] before = some tags ∧
      ∀ ends : List (Event × Span), ends.map Prod.fst = tags.map .stop → settles false (before ++ ends) = true) ∧
    ∀ {ends : List (Event × Span)} {tags : List Tag}, opened? [] before = some tags →
      ends.map Prod.fst = tags.map .stop → settles false (before ++ ends) = true →
        let cut := Block.ofEvents source before ds
        let whole := Block.ofEvents source (before ++ ends) ds
        whole = ((Builder.new source).events before).settleOpen.finish ds ∧
          (cut = whole ↔ ∀ l ∈ looseLists [] [] before, l = false) := by
  constructor
  · intro rest hnested
    have hcompletes : Completes .blocks [] before := completes_of_wellNested hnested rfl rfl
    obtain ⟨tags, hopened, hends⟩ := hcompletes
    rw [List.append_nil] at hopened
    exact ⟨tags, hopened, fun ends hmap => (settles_of_wellNested (hends ends hmap) fun _ => rfl).1⟩
  · intro ends tags hopened hends hsettles cut whole
    rw [settles_append, Bool.and_eq_true] at hsettles
    have hfollows := (follows_new source).events hopened hsettles.1
    have htracks := (tracks_new source).events (follows_new source) hopened hsettles.1
    have hfinish : ∀ ds, Block.ofEvents source (before ++ ends) ds =
        ((Builder.new source).events before).settleOpen.finish ds := by
      intro ds
      rw [Block.ofEvents, events_append]
      exact htracks.finish_stops hfollows hends hsettles.2 ds
    have hkept : ∀ es, ((Builder.new source).events es).Counted ∧ ((Builder.new source).events es).Undefined :=
      fun es => ⟨(counted_new source).events es, (undefined_new source).events es⟩
    refine ⟨hfinish ds, ?_, fun hloose => ?_⟩
    · intro heq
      refine (htracks.finish_settleOpen_iff hfollows.sound).1 ?_
      rw [← hfinish []]
      exact finish_nil_eq (hkept before) (hkept (before ++ ends)) heq.symm
    · exact ((hfinish ds).trans (htracks.finish_settleOpen hfollows.sound hloose ds)).symm

/-- A list cut in its second item, inside a paragraph of a quote. -/
theorem ofEvents_append_ends_quoteSample :
    let span : Span := ⟨0, 0⟩
    let before : List (Event × Span) := [(.start (.list none), span), (.start .item, span), (.text ['a'], span),
      (.stop .item, span), (.start .item, span), (.start .blockQuote, span), (.start .paragraph, span),
      (.text ['b'], span)]
    let ends : List (Event × Span) :=
      [(.stop .paragraph, span), (.stop .blockQuote, span), (.stop .item, span), (.stop (.list none), span)]
    (WellNested .blocks (before ++ ends) ∧ opened? [] before = some [.paragraph, .blockQuote, .item, .list none] ∧
      settles false (before ++ ends) = true ∧ looseLists [] [] before = [false]) ∧
      Block.ofEvents [] before [] = Block.ofEvents [] (before ++ ends) [] := by
  intro span before ends
  let spans : Ends := ⟨span, span⟩
  have hnested : WellNested .blocks (before ++ ends) :=
    BlockNode.wellNested_eventsOfAll [.list none spans [.mk spans [.inline (.leaf (.text ['a']) span)],
      .mk spans [.block (.quote spans [.paragraph spans [.leaf (.text ['b']) span]])]]]
  have hopened : opened? [] before = some [.paragraph, .blockQuote, .item, .list none] := by decide
  have hloose : looseLists [] [] before = [false] := by decide
  obtain ⟨hcut, hsame⟩ := ofEvents_append_ends [] [] before
  obtain ⟨tags, htags, hends⟩ := hcut ends hnested
  obtain rfl : [.paragraph, .blockQuote, .item, .list none] = tags := Option.some.inj (hopened.symm.trans htags)
  have hsettles := hends ends rfl
  refine ⟨⟨hnested, hopened, hsettles, hloose⟩, ?_⟩
  refine (hsame hopened rfl hsettles).2.2 fun l hl => ?_
  rw [hloose] at hl
  exact List.mem_singleton.1 hl

/-- A list cut inside a paragraph of its first item, which the list's end would make loose. -/
theorem not_ofEvents_append_ends_itemSample :
    let span : Span := ⟨0, 0⟩
    let before : List (Event × Span) :=
      [(.start (.list none), span), (.start .item, span), (.start .paragraph, span), (.text ['x'], span)]
    let ends : List (Event × Span) := [(.stop .paragraph, span), (.stop .item, span), (.stop (.list none), span)]
    let cut := Block.ofEvents [] before []
    let whole := Block.ofEvents [] (before ++ ends) []
    (WellNested .blocks (before ++ ends) ∧ opened? [] before = some [.paragraph, .item, .list none]) ∧
      cut.children.map (·.kind) = [.list (.bullet '-') true] ∧
      whole.children.map (·.kind) = [.list (.bullet '-') false] ∧ cut ≠ whole := by
  intro span before ends cut whole
  let spans : Ends := ⟨span, span⟩
  have hnested : WellNested .blocks (before ++ ends) :=
    BlockNode.wellNested_eventsOfAll [.list none spans [.mk spans [.block (.paragraph spans [.leaf (.text ['x']) span])]]]
  have hcut : cut.children.map (·.kind) = [.list (.bullet '-') true] := by decide
  have hwhole : whole.children.map (·.kind) = [.list (.bullet '-') false] := by decide
  refine ⟨⟨hnested, by decide⟩, hcut, hwhole, fun heq => ?_⟩
  rw [heq, hwhole] at hcut
  exact absurd hcut (by decide)

end CommonMark
