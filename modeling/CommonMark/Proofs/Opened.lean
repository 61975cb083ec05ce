import CommonMark.Proofs.Order

/-!
# What is open in a stream

Which constructs are open after some events can be read off the events alone (`opened?`), and so can whether running
text came directly in a container since (`pendingAfter`). A builder that takes a stream in which each construct stands
where it may has just those blocks open (`Follows.events`), as long as no quote ends right after such text (`settles`):
the end of a quote does not close the paragraph made for it. Every well nested stream is one of these
(`follows_of_wellNested`), but here what a document has no place for may hold running text wherever it stands.
-/

namespace CommonMark

/-- What may stand in a construct that a document has no place for: what may stand around it, and running text. -/
def Place.besides : Place → Place
  | blocks => item
  | p => p

/-- What may stand directly in the innermost of some open constructs. -/
def placeIn : List Tag → Place
  | [] => .blocks
  | tag :: tags =>
    match tag.content? with
    | some q => q
    | none => if tag.isMarkup then .text else (placeIn tags).besides

/-- Whether a construct may start in a place. -/
def Place.takesStart (p : Place) (tag : Tag) : Bool :=
  match tag.content? with
  | some _ => p.hasBlocks
  | none => if tag.isMarkup then p.hasText else p ≠ .lines

/-- The constructs that are open after an event, innermost first; nothing, when the event may not come. -/
def openedAfter? (tags : List Tag) : Event → Option (List Tag)
  | .start tag => if (placeIn tags).takesStart tag then some (tag :: tags) else none
  | .stop tag =>
    match tags with
    | tag' :: tags => if tag.bare = tag'.bare then some tags else none
    | [] => none
  | e => if (placeIn tags).takes e then some tags else none

/-- The constructs that are open after events. -/
def opened? (tags : List Tag) : List (Event × Span) → Option (List Tag)
  | [] => some tags
  | e :: es => (openedAfter? tags e.1).bind (opened? · es)

/-- Whether running text came after the last start or end of a block, when an event comes after the others. -/
def pendingAfter (pending : Bool) : Event → Bool
  | .start tag => pending && tag.content?.isNone
  | .stop tag => tag.isMarkup || pending && tag.content?.isNone
  | .rule => false
  | e => pending || e.shows

/-- Whether running text came after the last start or end of a block. -/
def pendingAfterAll (pending : Bool) (es : List (Event × Span)) : Bool :=
  es.foldl (fun pending e => pendingAfter pending e.1) pending

/-- Whether no quote ends right after running text. -/
def settles (pending : Bool) : List (Event × Span) → Bool
  | [] => true
  | e :: es => (!pending || e.1 ≠ .stop .blockQuote) && settles (pendingAfter pending e.1) es

/-- How many of some open constructs are blocks. -/
def depth (tags : List Tag) : Nat := tags.countP (·.content?.isSome)

theorem opened?_append (tags : List Tag) (es es' : List (Event × Span)) :
    opened? tags (es ++ es') = (opened? tags es).bind (opened? · es') := by
  induction es generalizing tags with
  | nil => rfl
  | cons e es ih => simp only [List.cons_append, opened?, ih, Option.bind_assoc]

theorem pendingAfterAll_append (pending : Bool) (es es' : List (Event × Span)) :
    pendingAfterAll pending (es ++ es') = pendingAfterAll (pendingAfterAll pending es) es' := List.foldl_append

theorem settles_append (pending : Bool) (es es' : List (Event × Span)) :
    settles pending (es ++ es') = (settles pending es && settles (pendingAfterAll pending es) es') := by
  induction es generalizing pending with
  | nil => simp [settles, pendingAfterAll]
  | cons e es ih => simp only [List.cons_append, settles, ih, Bool.and_assoc, pendingAfterAll, List.foldl_cons]

/-! ## Constructs that stand where they may -/

namespace Tag

theorem isMarkup_of_content? {tag : Tag} {q : Place} (h : tag.content? = some q) : tag.isMarkup = false := by
  cases tag <;> first | rfl | cases h

theorem content?_of_isMarkup {tag : Tag} (h : tag.isMarkup = true) : tag.content? = none := by
  cases tag <;> first | rfl | cases h

theorem content?_of_bare {tag tag' : Tag} (h : tag.bare = tag'.bare) : tag.content? = tag'.content? := by
  have hbare : ∀ t : Tag, t.bare.content? = t.content? := fun t => by cases t <;> rfl
  rw [← hbare, h, hbare]

theorem isMarkup_of_bare {tag tag' : Tag} (h : tag.bare = tag'.bare) : tag.isMarkup = tag'.isMarkup := by
  have hbare : ∀ t : Tag, t.bare.isMarkup = t.isMarkup := fun t => by cases t <;> rfl
  rw [← hbare, h, hbare]

end Tag

section

variable {tag : Tag}

theorem placeIn_block {q : Place} (hq : tag.content? = some q) (tags : List Tag) : placeIn (tag :: tags) = q := by
  simp [placeIn, hq]

theorem placeIn_markup (hm : tag.isMarkup = true) (tags : List Tag) : placeIn (tag :: tags) = .text := by
  simp [placeIn, Tag.content?_of_isMarkup hm, hm]

theorem placeIn_other (hq : tag.content? = none) (hm : tag.isMarkup = false) (tags : List Tag) :
    placeIn (tag :: tags) = (placeIn tags).besides := by
  simp [placeIn, hq, hm]

theorem takesStart_block {q : Place} (hq : tag.content? = some q) (p : Place) : p.takesStart tag = p.hasBlocks := by
  simp [Place.takesStart, hq]

theorem takesStart_markup (hm : tag.isMarkup = true) (p : Place) : p.takesStart tag = p.hasText := by
  simp [Place.takesStart, Tag.content?_of_isMarkup hm, hm]

theorem takesStart_other (hq : tag.content? = none) (hm : tag.isMarkup = false) (p : Place) :
    p.takesStart tag = decide (p ≠ .lines) := by
  simp [Place.takesStart, hq, hm]

end

/-- Whether each of some open constructs stands where it may. -/
def Proper : List Tag → Prop
  | [] => True
  | tag :: tags => (placeIn tags).takesStart tag = true ∧ Proper tags

/-- Whether each block among some open constructs is a container, innermost first. -/
def containers (tags : List Tag) : List Bool := tags.filterMap fun tag => tag.content?.map (·.hasBlocks)

/-- Where blocks may stand, only containers are open, and no markup. -/
theorem containers_of_hasBlocks {tags : List Tag} (h : Proper tags) (hp : (placeIn tags).hasBlocks = true) :
    (∀ c ∈ containers tags, c = true) ∧ tags.countP (·.isMarkup) = 0 := by
  induction tags with
  | nil => exact ⟨by simp [containers], rfl⟩
  | cons tag tags ih =>
    obtain ⟨hstart, hproper⟩ := h
    cases hq : tag.content? with
    | some q =>
      have hrest : (placeIn tags).hasBlocks = true := takesStart_block hq _ ▸ hstart
      have hqb : q.hasBlocks = true := placeIn_block hq tags ▸ hp
      obtain ⟨hcontainers, hmarkup⟩ := ih hproper hrest
      have hcons : containers (tag :: tags) = q.hasBlocks :: containers tags := by simp [containers, hq]
      rw [hcons, List.countP_cons, hmarkup, Tag.isMarkup_of_content? hq]
      refine ⟨fun c hc => ?_, rfl⟩
      rcases List.mem_cons.1 hc with rfl | hc
      · exact hqb
      · exact hcontainers c hc
    | none =>
      have hm : tag.isMarkup = false := by
        cases hm : tag.isMarkup with
        | false => rfl
        | true =>
          rw [placeIn_markup hm] at hp
          cases hp
      have hrest : (placeIn tags).hasBlocks = true := by
        have hbesides : (placeIn tags).besides.hasBlocks = true := placeIn_other hq hm tags ▸ hp
        cases hplace : placeIn tags <;> rw [hplace] at hbesides <;> first | rfl | cases hbesides
      obtain ⟨hcontainers, hmarkup⟩ := ih hproper hrest
      have hcons : containers (tag :: tags) = containers tags := by simp [containers, hq]
      rw [hcons, List.countP_cons, hmarkup, hm]
      exact ⟨hcontainers, rfl⟩

theorem length_containers (tags : List Tag) : (containers tags).length = depth tags := by
  induction tags with
  | nil => rfl
  | cons tag tags ih => cases hq : tag.content? <;> simp_all [containers, depth]

/-! ## Well nested streams -/

namespace Place

/-- Whether all that may stand in a place may stand in another. -/
def isWithin : Place → Place → Bool
  | blocks, blocks | blocks, item | item, item | text, text | text, item | lines, lines => true
  | _, _ => false

theorem isWithin_of_eq {p q : Place} (h : q = p) : p.isWithin q = true := by
  subst h
  cases q <;> rfl

section

variable {p q : Place} (h : p.isWithin q = true)
include h

theorem hasBlocks_of_isWithin (hp : p.hasBlocks = true) : q.hasBlocks = true := by
  cases p <;> cases q <;> simp_all [isWithin, hasBlocks]

theorem hasText_of_isWithin (hp : p.hasText = true) : q.hasText = true := by
  cases p <;> cases q <;> simp_all [isWithin, hasText]

theorem isWithin_besides : p.isWithin q.besides = true := by
  cases p <;> cases q <;> simp_all [isWithin, besides]

theorem takes_of_isWithin {e : Event} (he : p.takes e = true) : q.takes e = true := by
  cases e with
  | start _ | stop _ => cases he
  | rule => exact hasBlocks_of_isWithin h he
  | text _ | html _ => cases p <;> cases q <;> simp_all [isWithin, takes, hasText]
  | _ => exact hasText_of_isWithin h he

theorem takesStart_of_isWithin {tag : Tag} (ht : p.takesStart tag = true) : q.takesStart tag = true := by
  cases hq : tag.content? <;> cases hm : tag.isMarkup <;> cases p <;> cases q <;>
    simp_all [isWithin, takesStart, hasBlocks, hasText]

end

end Place

theorem openedAfter?_of_takes {tags : List Tag} {e : Event} (he : (placeIn tags).takes e = true) :
    openedAfter? tags e = some tags := by
  cases e with
  | start _ | stop _ => cases he
  | _ => exact if_pos he

/-- A construct that stands where it may, and whose content ends what it starts, leaves open what was open. -/
theorem opened?_node {tags : List Tag} {tag tag' : Tag} (opening closing : Span) {content : List (Event × Span)}
    (es : List (Event × Span)) (hstart : (placeIn tags).takesStart tag = true) (htag : tag'.bare = tag.bare)
    (hcontent : opened? (tag :: tags) content = some (tag :: tags)) :
    opened? tags ((.start tag, opening) :: (content ++ (.stop tag', closing) :: es)) = opened? tags es := by
  simp [opened?, openedAfter?, opened?_append, hstart, hcontent, htag]

/-- Each construct of a well nested stream stands where it may, and all of them end. -/
theorem opened?_of_wellNested {p : Place} {es : List (Event × Span)} (h : WellNested p es) {tags : List Tag}
    (hp : p.isWithin (placeIn tags) = true) : opened? tags es = some tags := by
  induction h generalizing tags with
  | nil p => rfl
  | leaf span he hes ih =>
    simp only [opened?, openedAfter?_of_takes (Place.takes_of_isWithin hp he)]
    exact ih hp
  | block opening closing hb hq htag _ _ ihcontent ih =>
    have hstart := Place.takesStart_of_isWithin hp ((takesStart_block hq _).trans hb)
    have hinner := ihcontent (Place.isWithin_of_eq (placeIn_block hq tags))
    rw [opened?_node opening closing _ hstart htag hinner]
    exact ih hp
  | markup opening closing ht hm htag _ _ ihcontent ih =>
    have hstart := Place.takesStart_of_isWithin hp ((takesStart_markup hm _).trans ht)
    have hinner := ihcontent (Place.isWithin_of_eq (placeIn_markup hm tags))
    rw [opened?_node opening closing _ hstart htag hinner]
    exact ih hp
  | other opening closing hlines hq hm htag _ _ ihcontent ih =>
    have hstart := Place.takesStart_of_isWithin hp ((takesStart_other hq hm _).trans (decide_eq_true hlines))
    have hinner := ihcontent (placeIn_other hq hm tags ▸ Place.isWithin_besides hp)
    rw [opened?_node opening closing _ hstart htag hinner]
    exact ih hp

theorem settles_node (pending : Bool) (tag tag' : Tag) (opening closing : Span) (content es : List (Event × Span)) :
    settles pending ((.start tag, opening) :: (content ++ (.stop tag', closing) :: es)) =
      (settles (pendingAfter pending (.start tag)) content &&
        ((!pendingAfterAll (pendingAfter pending (.start tag)) content || tag' ≠ .blockQuote) &&
          settles (pendingAfter (pendingAfterAll (pendingAfter pending (.start tag)) content) (.stop tag')) es)) := by
  simp [settles, settles_append]

theorem pendingAfterAll_node (pending : Bool) (tag tag' : Tag) (opening closing : Span)
    (content es : List (Event × Span)) :
    pendingAfterAll pending ((.start tag, opening) :: (content ++ (.stop tag', closing) :: es)) =
      pendingAfterAll (pendingAfter (pendingAfterAll (pendingAfter pending (.start tag)) content) (.stop tag')) es := by
  simp [pendingAfterAll]

/-- A quote of a well nested stream has no running text of its own, so none ends right after one. -/
theorem settles_of_wellNested {p : Place} {es : List (Event × Span)} (h : WellNested p es) {pending : Bool}
    (hp : p = .blocks → pending = false) :
    settles pending es = true ∧ (p = .blocks → pendingAfterAll pending es = false) := by
  induction h generalizing pending with
  | nil p => exact ⟨rfl, hp⟩
  | @leaf p e span es he hes ih =>
    have hquote : e ≠ .stop .blockQuote := by
      rintro rfl
      cases he
    have hpending : p = .blocks → pendingAfter pending e = false := by
      rintro rfl
      cases e <;> first | rfl | cases he
    obtain ⟨hsettles, hall⟩ := ih hpending
    exact ⟨by simp [settles, hquote, hsettles], hall⟩
  | @block p q tag tag' opening closing content es hb hq htag hcontent hes ihcontent ih =>
    have hq' : tag'.content? = some q := (Tag.content?_of_bare htag).trans hq
    have hstart : pendingAfter pending (.start tag) = false := by simp [pendingAfter, hq]
    have hstop : ∀ pending, pendingAfter pending (.stop tag') = false := by
      simp [pendingAfter, hq', Tag.isMarkup_of_content? hq']
    obtain ⟨hinner, hquote⟩ := @ihcontent false fun _ => rfl
    obtain ⟨hsettles, hall⟩ := @ih false fun _ => rfl
    rw [settles_node, pendingAfterAll_node, hstart, hstop]
    refine ⟨?_, hall⟩
    cases hlast : pendingAfterAll false content with
    | false => simp [hinner, hsettles]
    | true =>
      have hne : tag' ≠ .blockQuote := by
        rintro rfl
        cases hq'
        exact absurd (hlast.symm.trans (hquote rfl)) (by decide)
      simp [hinner, hsettles, hne]
  | @markup p tag tag' opening closing content es ht hmarkup htag hcontent hes ihcontent ih =>
    have hne : p ≠ .blocks := by
      rintro rfl
      cases ht
    have hquote : tag' ≠ .blockQuote := by
      rintro rfl
      rw [Tag.isMarkup_of_bare htag.symm] at hmarkup
      cases hmarkup
    obtain ⟨hinner, -⟩ := @ihcontent (pendingAfter pending (.start tag)) fun hp => nomatch hp
    have hrest := fun pending => @ih pending fun hp => absurd hp hne
    rw [settles_node, pendingAfterAll_node]
    exact ⟨by simp [hinner, hrest, hquote], fun hp => absurd hp hne⟩
  | @other p tag tag' opening closing content es hlines hq hmarkup htag hcontent hes ihcontent ih =>
    have hq' : tag'.content? = none := (Tag.content?_of_bare htag).trans hq
    have hm' : tag'.isMarkup = false := (Tag.isMarkup_of_bare htag).trans hmarkup
    have hquote : tag' ≠ .blockQuote := by
      rintro rfl
      cases hq'
    have hstart : pendingAfter pending (.start tag) = pending := by simp [pendingAfter, hq]
    have hstop : ∀ pending, pendingAfter pending (.stop tag') = pending := by simp [pendingAfter, hq', hm']
    obtain ⟨hinner, hall⟩ := ihcontent hp
    obtain ⟨hsettles, hall'⟩ := ih hall
    rw [settles_node, pendingAfterAll_node, hstart, hstop]
    exact ⟨by simp [hinner, hsettles, hquote], hall'⟩

/-! ## Builders that take them -/

namespace Builder

/-- Whether just the blocks and the inlines are open that a stream left open, and no paragraph made for text unless
text is pending. -/
structure Follows (tags : List Tag) (pending : Bool) (b : Builder) : Prop where
  sound : b.Sound
  proper : Proper tags
  path : b.path.map (·.isContainer) = containers tags ++ [true]
  inlines : b.inlines.length = tags.countP (·.isMarkup)
  reported : pending = false → b.Reported

theorem follows_new (source : Text) : Follows [] false (new source) where
  sound := sound_new source
  proper := trivial
  path := rfl
  inlines := rfl
  reported := fun _ => (fits_new source).2

namespace Follows

variable {tags tags' : List Tag} {pending : Bool} {b : Builder}

theorem between (h : Follows tags pending b) (hp : (placeIn tags).hasBlocks = true) : b.Between := by
  obtain ⟨hcontainers, hmarkup⟩ := containers_of_hasBlocks h.proper hp
  refine ⟨fun k hk => ?_, ?_⟩
  · have hmem : k.isContainer ∈ containers tags ++ [true] := h.path ▸ List.mem_map_of_mem hk
    rcases List.mem_append.1 hmem with hmem | hmem
    · exact hcontainers _ hmem
    · exact List.mem_singleton.1 hmem
  · have hlength := h.inlines
    rw [hmarkup] at hlength
    exact List.length_eq_zero_iff.1 hlength

/-- Without pending text what is open is the same. -/
theorem start (h : Follows tags pending b) (span : Span) {tag : Tag} (htag : (placeIn tags).takesStart tag = true) :
    Follows (tag :: tags) (pendingAfter pending (.start tag)) (b.start span tag) := by
  have hproper : Proper (tag :: tags) := ⟨htag, h.proper⟩
  have hsound := h.sound.start span tag
  cases hq : tag.content? with
  | some q =>
    obtain ⟨block, loose, hstart, hc, -⟩ := start_block b span hq
    have hpath : (b.start span tag).path = block.kind :: b.path := by
      rw [hstart]
      exact congrArg (block.kind :: ·) (path_closeImplicit h.sound)
    refine ⟨hsound, hproper, ?_, ?_, fun _ => ?_⟩
    · rw [hpath, List.map_cons, h.path, hc]
      simp [containers, hq]
    · rw [hstart, List.countP_cons, Tag.isMarkup_of_content? hq]
      exact (congrArg List.length b.inlines_closeImplicit).trans h.inlines
    · rw [hstart]
      intro f fs hblocks
      cases hblocks
      rfl
  | none =>
    have hcontainers : containers (tag :: tags) = containers tags := by simp [containers, hq]
    have hpending : pendingAfter pending (.start tag) = pending := by simp [pendingAfter, hq]
    rw [hpending]
    cases hm : tag.isMarkup with
    | true =>
      obtain ⟨w, hstart⟩ := start_markup hm
      rw [hstart] at hsound ⊢
      refine ⟨hsound, hproper, hcontainers ▸ h.path, ?_, h.reported⟩
      rw [List.countP_cons, hm]
      exact congrArg (· + 1) h.inlines
    | false =>
      rw [start_other b span hq hm]
      refine ⟨h.sound, hproper, hcontainers ▸ h.path, ?_, h.reported⟩
      rw [List.countP_cons, hm]
      exact h.inlines

theorem stop {tag tag' : Tag} (h : Follows (tag' :: tags) pending b) (htag : tag.bare = tag'.bare)
    (hquote : tag = .blockQuote → pending = false) :
    Follows tags (pendingAfter pending (.stop tag)) (b.stop tag) := by
  have hproper : Proper tags := h.proper.2
  have hsound := h.sound.stop tag
  have hpath := h.path
  have hinlines := h.inlines
  rw [List.countP_cons, ← Tag.isMarkup_of_bare htag] at hinlines
  cases hq : tag.content? with
  | some q =>
    have hq' : tag'.content? = some q := (Tag.content?_of_bare htag).symm.trans hq
    have hcontainers : containers (tag' :: tags) = q.hasBlocks :: containers tags := by simp [containers, hq']
    rw [hcontainers, List.cons_append, List.map_eq_cons_iff] at hpath
    obtain ⟨k, ks, hpath, hk, hks⟩ := hpath
    have hne : ks ≠ [] := by
      rintro rfl
      simp at hks
    rw [Tag.isMarkup_of_content? hq] at hinlines
    obtain ⟨closing, hstop, hsound', hr, ⟨k', hpath'⟩, hinlines', -⟩ :=
      stop_block hq h.sound (fun htag => h.reported (hquote htag)) hpath hk
    obtain ⟨hclosed, hreported, -⟩ := path_closeBlock_of_reported hsound' hr hpath' hne
    rw [hstop] at hsound ⊢
    refine ⟨hsound, hproper, hclosed ▸ hks, ?_, fun _ => hreported⟩
    rw [inlines_closeBlock, hinlines']
    exact hinlines
  | none =>
    have hq' : tag'.content? = none := (Tag.content?_of_bare htag).symm.trans hq
    have hcontainers : containers (tag' :: tags) = containers tags := by simp [containers, hq']
    rw [hcontainers] at hpath
    cases hm : tag.isMarkup with
    | true =>
      rw [hm] at hinlines
      rw [stop_markup b hm] at hsound ⊢
      refine ⟨hsound, hproper, (path_closeInline b).symm ▸ hpath, ?_, fun hpending => ?_⟩
      · rw [length_closeInline, hinlines]
        rfl
      · simp [pendingAfter, hm] at hpending
    | false =>
      rw [hm] at hinlines
      rw [stop_other b hq hm]
      refine ⟨h.sound, hproper, hpath, hinlines, fun hpending => h.reported ?_⟩
      simpa [pendingAfter, hq, hm] using hpending

/-- What changes no more than inlines or a literal leaves open what is open. -/
theorem of_kept (h : Follows tags pending b) {b' : Builder} (hsound : b'.Sound) (hpath : b'.path = b.path)
    (hinlines : b'.inlines.length = b.inlines.length) {pending' : Bool} (hr : pending' = false → b'.Reported) :
    Follows tags pending' b' :=
  ⟨hsound, h.proper, hpath ▸ h.path, hinlines.trans h.inlines, hr⟩

theorem onInlines (h : Follows tags pending b) (f : List Inline → List Inline) : Follows tags true (b.onInlines f) :=
  h.of_kept (h.sound.onInlines f) (path_onInlines b f) (length_onInlines b f) fun hpending => nomatch hpending

theorem pushInlines (h : Follows tags pending b) (is : List Inline) : Follows tags true (b.pushInlines is) :=
  h.onInlines _

theorem getD_pushLiteral? (h : Follows tags pending b) {b' : Builder} (h' : Follows tags true b') (s : Segment) :
    Follows tags true ((b.pushLiteral? s).getD b') := by
  cases hpush : b.pushLiteral? s with
  | none => exact h'
  | some pushed =>
    have hsound : ((b.pushLiteral? s).getD b').Sound := h.sound.getD_pushLiteral? h'.sound s
    obtain ⟨kind, c, children, inlines, start, implicit, fs, hblocks, rfl⟩ := exists_of_pushLiteral? hpush
    rw [hpush] at hsound
    refine h.of_kept hsound ?_ rfl fun hpending => nomatch hpending
    cases implicit <;> simp [Builder.path, kinds, hblocks]

/-- **A builder keeps open what the stream leaves open.** -/
theorem event (h : Follows tags pending b) {e : Event} (hopened : openedAfter? tags e = some tags')
    (hquote : e = .stop .blockQuote → pending = false) (span : Span) :
    Follows tags' (pendingAfter pending e) (b.event span e) := by
  cases e with
  | start tag =>
    simp only [openedAfter?, Option.ite_none_right_eq_some, Option.some.injEq] at hopened
    obtain ⟨htag, rfl⟩ := hopened
    exact h.start span htag
  | stop tag =>
    cases tags with
    | nil => cases hopened
    | cons tag' tags =>
      simp only [openedAfter?, Option.ite_none_right_eq_some, Option.some.injEq] at hopened
      obtain ⟨htag, rfl⟩ := hopened
      exact h.stop htag fun htag => hquote (htag ▸ rfl)
  | rule =>
    simp only [openedAfter?, Option.ite_none_right_eq_some, Option.some.injEq] at hopened
    obtain ⟨-, rfl⟩ := hopened
    refine h.of_kept (h.sound.event span .rule) ((path_attach _ _ _).trans (path_closeImplicit h.sound)) ?_
      fun _ => h.sound.reported_closeImplicit.attach _ _
    exact congrArg List.length ((inlines_attach _ _ _).trans b.inlines_closeImplicit)
  | footnoteReference _ | taskListMarker _ =>
    simp only [openedAfter?, Option.ite_none_right_eq_some, Option.some.injEq] at hopened
    obtain ⟨-, rfl⟩ := hopened
    change Follows tags (pending || false) b
    rwa [Bool.or_false]
  | text t | inlineMath t | displayMath t | html t =>
    simp only [openedAfter?, Option.ite_none_right_eq_some, Option.some.injEq] at hopened
    obtain ⟨-, rfl⟩ := hopened
    change Follows tags (pending || true) _
    rw [Bool.or_true]
    exact h.getD_pushLiteral? (h.onInlines _) _
  | code t | inlineHtml t | softBreak | hardBreak =>
    simp only [openedAfter?, Option.ite_none_right_eq_some, Option.some.injEq] at hopened
    obtain ⟨-, rfl⟩ := hopened
    change Follows tags (pending || true) _
    rw [Bool.or_true]
    exact h.pushInlines _

theorem events (h : Follows tags pending b) {es : List (Event × Span)} (hopened : opened? tags es = some tags')
    (hsettles : settles pending es = true) : Follows tags' (pendingAfterAll pending es) (b.events es) := by
  induction es generalizing tags pending b with
  | nil =>
    cases hopened
    exact h
  | cons e es ih =>
    obtain ⟨tags₁, hfirst, hrest⟩ := Option.bind_eq_some_iff.1 hopened
    simp only [settles, Bool.and_eq_true] at hsettles
    exact ih (h.event hfirst (fun he => by simpa [he] using hsettles.1) e.2) hrest hsettles.2

end Follows

/-- A builder that takes a well nested stream has the document alone open. -/
theorem follows_of_wellNested (source : Text) {es : List (Event × Span)} (h : WellNested .blocks es) :
    Follows [] false ((new source).events es) := by
  obtain ⟨hsettles, hpending⟩ := settles_of_wellNested h fun _ => rfl
  have hopened : opened? [] es = some [] := opened?_of_wellNested h rfl
  have hfollows := (follows_new source).events hopened hsettles
  rwa [hpending rfl] at hfollows

end Builder

end CommonMark
