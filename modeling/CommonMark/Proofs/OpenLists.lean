import CommonMark.Proofs.Opened

/-!
# Lists that are open

Which lists a stream leaves open, and which of them have had a paragraph in an item, can be read off the events alone
(`looseLists`). A builder that takes the stream has open just the blocks that the open constructs opened, the lists
among them as they opened, and knows of each list what the stream says (`Tracks.events`). A list is settled only by its
end.
-/

namespace CommonMark

/-! ## What a stream says -/

/-- Whether each open list has had a paragraph in an item, innermost first, when an event comes where some constructs
are open. -/
def looseAfter (tags : List Tag) (loose : List Bool) : Event → List Bool
  | .start .paragraph => if tags.find? (·.content?.isSome) = some .item then BlockNode.loosened loose else loose
  | .start (.list _) => false :: loose
  | .stop (.list _) => loose.tail
  | _ => loose

/-- Whether each list that events leave open has had a paragraph in an item. -/
def looseLists (tags : List Tag) (loose : List Bool) : List (Event × Span) → List Bool
  | [] => loose
  | e :: es => looseLists ((openedAfter? tags e.1).getD []) (looseAfter tags loose e.1) es

theorem length_looseAfter_start (tags : List Tag) (loose : List Bool) (tag : Tag) :
    (looseAfter tags loose (.start tag)).length = loose.length + if tag.bare = .list none then 1 else 0 := by
  have hloosened : (BlockNode.loosened loose).length = loose.length := by cases loose <;> rfl
  cases tag with
  | paragraph => by_cases h : tags.find? (·.content?.isSome) = some .item <;> simp [looseAfter, h, Tag.bare, hloosened]
  | _ => simp [looseAfter, Tag.bare]

theorem length_looseAfter_stop (tags : List Tag) (loose : List Bool) (tag : Tag) :
    (looseAfter tags loose (.stop tag)).length = loose.length - if tag.bare = .list none then 1 else 0 := by
  cases tag <;> simp [looseAfter, Tag.bare]

/-- The tag, without what it says of its construct, whose start opens a block of a kind; a list opens as tight. -/
def BlockKind.opener? : BlockKind → Option Tag
  | paragraph => some .paragraph
  | blockQuote => some .blockQuote
  | list _ true => some (.list none)
  | listItem => some .item
  | atxHeader _ | setextHeader _ => some (.heading .h1)
  | indentedCode | fencedCode _ => some (.codeBlock none)
  | htmlBlock => some .htmlBlock
  | _ => none

/-- The blocks among some open constructs. -/
def openers (tags : List Tag) : List Tag := (tags.filter (·.content?.isSome)).map (·.bare)

namespace Tag

theorem bare_eq_item {tag : Tag} : tag.bare = .item ↔ tag = .item := by
  cases tag <;> simp [bare]

end Tag

theorem list?_of_opener? {k : BlockKind} {tag : Tag} (h : k.opener? = some tag) :
    k.list?.isSome = decide (tag = .list none) := by
  cases k with
  | list style tight =>
    cases tight <;> cases h
    rfl
  | _ => cases h <;> rfl

theorem countP_list? {ks : List BlockKind} {tags : List Tag} (h : ks.map (·.opener?) = tags.map some) :
    ks.countP (·.list?.isSome) = tags.countP (· = .list none) := by
  induction ks generalizing tags with
  | nil =>
    rw [List.map_eq_nil_iff.1 h.symm]
    rfl
  | cons k ks ih =>
    obtain ⟨tag, tags, rfl, hk, hks⟩ := List.map_eq_cons_iff.1 h.symm
    rw [List.countP_cons, List.countP_cons, ih hks.symm, list?_of_opener? hk.symm]

theorem countP_openers (tags : List Tag) :
    (openers tags).countP (· = .list none) = tags.countP (·.bare = .list none) := by
  rw [openers, List.countP_map, List.countP_filter]
  refine List.countP_congr fun tag _ => ?_
  cases tag <;> simp [Tag.bare, Tag.content?]

theorem openers_cons (tag : Tag) (tags : List Tag) :
    openers (tag :: tags) = (if tag.content?.isSome then [tag.bare] else []) ++ openers tags := by
  cases hq : tag.content? <;> simp [openers, hq]

namespace Builder

/-! ## What an event changes -/

variable {b : Builder}

theorem loose_attach (b : Builder) (block : Block) (start : Nat) : (b.attach block start).loose = b.loose := by
  obtain ⟨source, blocks, inlines, loose, starts⟩ := b
  cases blocks <;> rfl

theorem loose_closeBlock (b : Builder) : b.closeBlock.loose = b.loose := by
  obtain ⟨source, blocks, inlines, loose, starts⟩ := b
  rcases blocks with _ | ⟨f, _ | ⟨g, fs⟩⟩ <;> rfl

theorem loose_closeImplicit (b : Builder) : b.closeImplicit.loose = b.loose := by
  unfold closeImplicit
  split
  · exact b.loose_closeBlock
  · rfl

theorem loose_onInlines (b : Builder) (f : List Inline → List Inline) : (b.onInlines f).loose = b.loose := by
  obtain ⟨source, blocks, inlines, loose, starts⟩ := b
  rcases inlines with _ | ⟨i, is⟩
  · rcases blocks with _ | ⟨top, fs⟩
    · rfl
    · by_cases hc : top.block.kind.isContainer = true <;> simp [onInlines, hc]
  · rfl

theorem loose_closeInline (b : Builder) : b.closeInline.loose = b.loose := by
  obtain ⟨source, blocks, inlines, loose, starts⟩ := b
  cases inlines with
  | nil => rfl
  | cons i is => exact loose_onInlines ⟨source, blocks, is, loose, starts⟩ _

theorem loose_markLoose (b : Builder) : b.markLoose.loose = BlockNode.loosened b.loose := by
  obtain ⟨source, blocks, inlines, loose, starts⟩ := b
  cases loose <;> rfl

/-- A start raises the flag of the innermost list only for a paragraph that an item is around. -/
theorem loose_start (b : Builder) (span : Span) {tags : List Tag}
    (hitem : b.closeImplicit.blocks.head?.any (·.block.kind = .listItem) =
      decide (tags.find? (·.content?.isSome) = some .item)) (tag : Tag) :
    (b.start span tag).loose = looseAfter tags b.loose (.start tag) := by
  cases tag with
  | paragraph =>
    by_cases hfind : tags.find? (·.content?.isSome) = some .item
    · simp only [start, hitem, hfind, decide_true, ite_true, looseAfter]
      exact (loose_markLoose _).trans (congrArg BlockNode.loosened b.loose_closeImplicit)
    · simp only [start, hitem, hfind, decide_false, looseAfter, ite_false]
      exact b.loose_closeImplicit
  | codeBlock info => cases info <;> exact b.loose_closeImplicit
  | list first => exact congrArg (false :: ·) b.loose_closeImplicit
  | heading _ | blockQuote | htmlBlock | item => exact b.loose_closeImplicit
  | _ => rfl

theorem loose_stop (b : Builder) (tags : List Tag) (tag : Tag) :
    (b.stop tag).loose = looseAfter tags b.loose (.stop tag) := by
  cases tag with
  | paragraph | heading _ | blockQuote | codeBlock _ | htmlBlock => exact b.loose_closeBlock
  | item => exact (loose_closeBlock _).trans b.loose_closeImplicit
  | list first => exact (loose_closeBlock _).trans (congrArg List.tail b.loose_closeImplicit)
  | emphasis | strong | link _ _ | image _ _ | strikethrough | superscript | subscript => exact b.loose_closeInline
  | _ => rfl

theorem kind_of_implicit (h : b.Sound) {f : Frame} (hf : f ∈ b.blocks) (himplicit : f.implicit = true) :
    f.block.kind = .paragraph := by
  rcases hblocks : b.blocks with _ | ⟨g, _ | ⟨g', fs⟩⟩
  · simp [hblocks] at hf
  · rw [Sound, hblocks] at h
    obtain rfl : f = g := by simpa [hblocks] using hf
    exact absurd (himplicit.symm.trans (Frame.IsRoot.reported h)) (by decide)
  · rw [Sound, hblocks] at h
    rw [hblocks] at hf
    rcases List.mem_cons.1 hf with rfl | hf
    · exact (h.1.implicit himplicit).1
    · exact absurd (himplicit.symm.trans (h.implicit_tail f hf)) (by decide)

/-- An event that reports no start and no end changes neither what is open nor what is known of the lists. -/
theorem path_leaf (h : b.Sound) {p : Place} {e : Event} (he : p.takes e = true) (span : Span) :
    (b.event span e).path = b.path ∧ (b.event span e).loose = b.loose := by
  have hinlines : ∀ f, (b.onInlines f).path = b.path ∧ (b.onInlines f).loose = b.loose := fun f =>
    ⟨b.path_onInlines f, b.loose_onInlines f⟩
  have hliteral : ∀ (s : Segment) f, ((b.pushLiteral? s).getD (b.onInlines f)).path = b.path ∧
      ((b.pushLiteral? s).getD (b.onInlines f)).loose = b.loose := by
    intro s f
    cases hpush : b.pushLiteral? s with
    | none => exact hinlines f
    | some pushed =>
      obtain ⟨kind, c, children, inlines, start, implicit, fs, hblocks, rfl⟩ := exists_of_pushLiteral? hpush
      refine ⟨?_, rfl⟩
      cases implicit <;> simp [path, kinds, hblocks]
  cases e with
  | start _ | stop _ => cases he
  | text t | inlineMath t | displayMath t | html t => exact hliteral _ _
  | code t | inlineHtml t | softBreak | hardBreak => exact hinlines _
  | rule =>
    exact ⟨(path_attach _ _ _).trans (path_closeImplicit h), (loose_attach _ _ _).trans b.loose_closeImplicit⟩
  | footnoteReference _ | taskListMarker _ => exact ⟨rfl, rfl⟩

/-- The start of a block opens one that its tag opens. -/
theorem path_start (h : b.Sound) (span : Span) {tag : Tag} {q : Place} (hq : tag.content? = some q) :
    ∃ k, (b.start span tag).path = k :: b.path ∧ k.opener? = some tag.bare := by
  have hpath := path_closeImplicit h
  cases tag with
  | paragraph =>
    refine ⟨.paragraph, ?_, rfl⟩
    simp only [start]
    split
    · have hblocks := Sound.blocks_markLoose b.closeImplicit
      exact congrArg (BlockKind.paragraph :: ·) ((congrArg kinds hblocks).trans hpath)
    · exact congrArg (BlockKind.paragraph :: ·) hpath
  | heading level =>
    simp only [start]
    split
    · exact ⟨.atxHeader level.toNat, congrArg (BlockKind.atxHeader level.toNat :: ·) hpath, rfl⟩
    · exact ⟨.setextHeader level.toNat, congrArg (BlockKind.setextHeader level.toNat :: ·) hpath, rfl⟩
  | codeBlock info => cases info <;> exact ⟨_, congrArg (_ :: ·) hpath, rfl⟩
  | blockQuote | htmlBlock | list _ | item => exact ⟨_, congrArg (_ :: ·) hpath, rfl⟩
  | _ => cases hq

/-- The end of a block closes the one that was opened last. -/
theorem Follows.path_stop {tags : List Tag} {tag tag' : Tag} {pending : Bool} (h : Follows (tag' :: tags) pending b)
    (htag : tag.bare = tag'.bare) (hquote : tag = .blockQuote → pending = false) {q : Place}
    (hq : tag.content? = some q) : ∃ k, b.path = k :: (b.stop tag).path := by
  have hq' : tag'.content? = some q := (Tag.content?_of_bare htag).symm.trans hq
  have hpath := h.path
  have hcontainers : containers (tag' :: tags) = q.hasBlocks :: containers tags := by simp [containers, hq']
  rw [hcontainers, List.cons_append, List.map_eq_cons_iff] at hpath
  obtain ⟨k, ks, hpath, hk, hks⟩ := hpath
  have hne : ks ≠ [] := by
    rintro rfl
    simp at hks
  obtain ⟨closing, hstop, hsound, hr, ⟨k', hpath'⟩, -⟩ :=
    stop_block hq h.sound (fun htag => h.reported (hquote htag)) hpath hk
  refine ⟨k, ?_⟩
  rw [hstop, (path_closeBlock_of_reported hsound hr hpath' hne).1, hpath]

/-! ## Builders that know it -/

/-- Whether the blocks that are open are those that some constructs opened, and each open list is known to have had a
paragraph in an item or not. -/
structure Tracks (tags : List Tag) (loose : List Bool) (b : Builder) : Prop where
  path : ∃ ks, b.path = ks ++ [.document] ∧ ks.map (·.opener?) = (openers tags).map some
  flags : b.loose = loose
  length : loose.length = tags.countP (·.bare = .list none)

theorem tracks_new (source : Text) : Tracks [] [] (new source) := ⟨⟨[], rfl, rfl⟩, rfl, rfl⟩

namespace Tracks

variable {tags tags' : List Tag} {loose : List Bool} {pending : Bool} {b : Builder}

theorem of_path (h : Tracks tags loose b) {b' : Builder} (hb' : b'.path = b.path ∧ b'.loose = b.loose) :
    Tracks tags loose b' :=
  ⟨hb'.1.symm ▸ h.path, hb'.2.trans h.flags, h.length⟩

theorem closeImplicit (h : Tracks tags loose b) (hsound : b.Sound) : Tracks tags loose b.closeImplicit :=
  h.of_path ⟨path_closeImplicit hsound, b.loose_closeImplicit⟩

/-- The innermost block is the one that the innermost construct opened. -/
theorem head (h : Tracks tags loose b) (hsound : b.Sound) (hr : b.Reported) :
    ∃ f fs, b.blocks = f :: fs ∧ f.block.kind.opener? = (tags.find? (·.content?.isSome)).map (·.bare) := by
  obtain ⟨ks, hpath, hks⟩ := h.path
  have hfirst : (tags.find? (·.content?.isSome)).map (·.bare) = (openers tags).head? := by
    rw [openers, List.head?_map, List.head?_filter]
  rcases hblocks : b.blocks with _ | ⟨f, fs⟩
  · exact absurd hblocks hsound.blocks_ne_nil
  · refine ⟨f, fs, rfl, ?_⟩
    rw [Builder.path, hblocks, kinds_cons_of_reported (hr f fs hblocks)] at hpath
    rw [hfirst]
    cases hopeners : openers tags with
    | nil =>
      rw [hopeners, List.map_nil, List.map_eq_nil_iff] at hks
      rw [hks, List.nil_append, List.cons.injEq] at hpath
      rw [hpath.1]
      rfl
    | cons tag rest =>
      rw [hopeners, List.map_cons, List.map_eq_cons_iff] at hks
      obtain ⟨k, ks, rfl, hk, -⟩ := hks
      rw [List.cons_append, List.cons.injEq] at hpath
      rw [hpath.1]
      exact hk

/-- So it is an item just when that is one. -/
theorem head_eq_listItem (h : Tracks tags loose b) (hsound : b.Sound) (hr : b.Reported) :
    b.blocks.head?.any (·.block.kind = .listItem) = decide (tags.find? (·.content?.isSome) = some .item) := by
  obtain ⟨f, fs, hblocks, hopener⟩ := h.head hsound hr
  have hkind : f.block.kind = .listItem ↔ f.block.kind.opener? = some .item := by
    cases f.block.kind with
    | list style tight => cases tight <;> simp [BlockKind.opener?]
    | _ => simp [BlockKind.opener?]
  have hitem : (tags.find? (·.content?.isSome)).map (·.bare) = some .item ↔
      tags.find? (·.content?.isSome) = some .item := by
    cases tags.find? (·.content?.isSome) <;> simp [Tag.bare_eq_item]
  rw [hblocks, List.head?_cons, Option.any_some, decide_eq_decide, hkind, hopener, hitem]

theorem start (h : Tracks tags loose b) (hsound : b.Sound) (span : Span) (tag : Tag) :
    Tracks (tag :: tags) (looseAfter tags loose (.start tag)) (b.start span tag) := by
  obtain ⟨ks, hpath, hks⟩ := h.path
  have hitem := (h.closeImplicit hsound).head_eq_listItem hsound.closeImplicit hsound.reported_closeImplicit
  refine ⟨?_, h.flags ▸ b.loose_start span hitem tag, ?_⟩
  · cases hq : tag.content? with
    | some q =>
      obtain ⟨k, hstart, hk⟩ := path_start hsound span hq
      refine ⟨k :: ks, by rw [hstart, hpath, List.cons_append], ?_⟩
      simp [openers_cons, hq, hk, hks]
    | none =>
      refine ⟨ks, ?_, by simp [openers_cons, hq, hks]⟩
      cases hm : tag.isMarkup with
      | true =>
        obtain ⟨w, hstart⟩ := start_markup hm
        rw [hstart]
        exact hpath
      | false => rwa [start_other b span hq hm]
  · rw [length_looseAfter_start, List.countP_cons, h.length]
    simp only [decide_eq_true_eq]

theorem stop {tag tag' : Tag} (h : Tracks (tag' :: tags) loose b) (hfollows : Follows (tag' :: tags) pending b)
    (htag : tag.bare = tag'.bare) (hquote : tag = .blockQuote → pending = false) :
    Tracks tags (looseAfter (tag' :: tags) loose (.stop tag)) (b.stop tag) := by
  obtain ⟨ks, hpath, hks⟩ := h.path
  refine ⟨?_, h.flags ▸ b.loose_stop (tag' :: tags) tag, ?_⟩
  · cases hq : tag.content? with
    | some q =>
      have hq' : tag'.content? = some q := (Tag.content?_of_bare htag).symm.trans hq
      obtain ⟨k, hstop⟩ := hfollows.path_stop htag hquote hq
      simp only [openers_cons, hq', Option.isSome_some, ite_true, List.cons_append, List.nil_append, List.map_cons,
        List.map_eq_cons_iff] at hks
      obtain ⟨k', ks, rfl, -, hks⟩ := hks
      rw [hpath, List.cons_append, List.cons.injEq] at hstop
      exact ⟨ks, hstop.2.symm, hks⟩
    | none =>
      have hq' : tag'.content? = none := (Tag.content?_of_bare htag).symm.trans hq
      refine ⟨ks, ?_, by simpa [openers_cons, hq'] using hks⟩
      cases hm : tag.isMarkup with
      | true => rwa [stop_markup b hm, path_closeInline]
      | false => rwa [stop_other b hq hm]
  · rw [length_looseAfter_stop, h.length, List.countP_cons, htag]
    simp only [decide_eq_true_eq, Nat.add_sub_cancel]

theorem event (h : Tracks tags loose b) (hfollows : Follows tags pending b) {e : Event}
    (hopened : openedAfter? tags e = some tags') (hquote : e = .stop .blockQuote → pending = false) (span : Span) :
    Tracks tags' (looseAfter tags loose e) (b.event span e) := by
  cases e with
  | start tag =>
    simp only [openedAfter?, Option.ite_none_right_eq_some, Option.some.injEq] at hopened
    obtain ⟨-, rfl⟩ := hopened
    exact h.start hfollows.sound span tag
  | stop tag =>
    cases tags with
    | nil => cases hopened
    | cons tag' tags =>
      simp only [openedAfter?, Option.ite_none_right_eq_some, Option.some.injEq] at hopened
      obtain ⟨htag, rfl⟩ := hopened
      exact h.stop hfollows htag fun htag => hquote (htag ▸ rfl)
  | _ =>
    simp only [openedAfter?, Option.ite_none_right_eq_some, Option.some.injEq] at hopened
    obtain ⟨he, rfl⟩ := hopened
    exact h.of_path (path_leaf hfollows.sound he span)

/-- **A builder knows of its lists what the stream says.** -/
theorem events (h : Tracks tags loose b) (hfollows : Follows tags pending b) {es : List (Event × Span)}
    (hopened : opened? tags es = some tags') (hsettles : settles pending es = true) :
    Tracks tags' (looseLists tags loose es) (b.events es) := by
  induction es generalizing tags loose pending b with
  | nil =>
    cases hopened
    exact h
  | cons e es ih =>
    obtain ⟨tags₁, hfirst, hrest⟩ := Option.bind_eq_some_iff.1 hopened
    simp only [settles, Bool.and_eq_true] at hsettles
    have hquote : e.1 = .stop .blockQuote → pending = false := fun he => by simpa [he] using hsettles.1
    rw [looseLists, hfirst, Option.getD_some]
    exact ih (h.event hfollows hfirst hquote e.2) (hfollows.event hfirst hquote e.2) hrest hsettles.2

theorem closeInlines (h : Tracks tags loose b) : Tracks tags loose b.closeInlines := by
  rw [← repeat_closeInline _ rfl]
  exact iterate (P := Tracks tags loose)
    (fun b hb => hb.of_path ⟨path_closeInline b, b.loose_closeInline⟩) h _

/-- No open list has been settled. -/
theorem tight (h : Tracks tags loose b) (hsound : b.Sound) {f : Frame} (hf : f ∈ b.blocks) {style : ListStyle}
    {tight : Bool} (hkind : f.block.kind = .list style tight) : tight = true := by
  obtain ⟨ks, hpath, hks⟩ := h.path
  have hreported : f.implicit = false := by
    cases himplicit : f.implicit with
    | false => rfl
    | true =>
      rw [kind_of_implicit hsound hf himplicit] at hkind
      cases hkind
  have hmem : f.block.kind ∈ b.path := List.mem_map_of_mem (List.mem_filter.2 ⟨hf, by simp [hreported]⟩)
  rw [hkind, hpath, List.mem_append, List.mem_singleton] at hmem
  rcases hmem with hmem | hmem
  · have hopener := List.mem_map_of_mem (f := BlockKind.opener?) hmem
    rw [hks] at hopener
    cases tight with
    | true => rfl
    | false => simp [BlockKind.opener?] at hopener
  · cases hmem

/-- There are as many flags as there are open lists. -/
theorem count (h : Tracks tags loose b) (hsound : b.Sound) :
    loose.length = b.blocks.countP (·.block.kind.list?.isSome) := by
  obtain ⟨ks, hpath, hks⟩ := h.path
  have hblocks : b.path.countP (·.list?.isSome) = b.blocks.countP (·.block.kind.list?.isSome) := by
    rw [Builder.path, kinds, List.countP_map, List.countP_filter]
    refine List.countP_congr fun f hf => ?_
    cases himplicit : f.implicit with
    | false => simp
    | true => simp [kind_of_implicit hsound hf himplicit, BlockKind.list?]
  rw [← hblocks, hpath, List.countP_append, countP_list? hks, countP_openers, ← h.length]
  rfl

/-- Where the innermost construct opened a block that is no list, no list is the innermost block. -/
theorem list?_head {tag : Tag} (h : Tracks (tag :: tags) loose b) (hsound : b.Sound)
    (hq : tag.content?.isSome = true) (hlist : tag.bare ≠ .list none) :
    ∀ f ∈ b.blocks.head?, f.block.kind.list? = none := by
  intro f hf
  cases himplicit : f.implicit with
  | true =>
    rw [kind_of_implicit hsound (List.mem_of_mem_head? hf) himplicit]
    rfl
  | false =>
    have hr : b.Reported := by
      intro g fs hblocks
      obtain rfl : g = f := by simpa [hblocks] using hf
      exact himplicit
    obtain ⟨g, fs, hblocks, hopener⟩ := h.head hsound hr
    obtain rfl : g = f := by simpa [hblocks] using hf
    rw [List.find?_cons_of_pos (p := fun t : Tag => t.content?.isSome) hq, Option.map_some] at hopener
    have hsome := list?_of_opener? hopener
    rwa [decide_eq_false hlist, Option.isSome_eq_false_iff, Option.isNone_iff_eq_none] at hsome

end Tracks

end Builder

end CommonMark
