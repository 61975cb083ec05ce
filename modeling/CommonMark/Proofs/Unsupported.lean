import CommonMark.Proofs.Growth
import CommonMark.Proofs.Opened

/-!
# Constructs that a document has no place for

Tables, footnotes, definition lists and metadata leave no block behind. Their running text goes into a paragraph made
for it in the container around, which the next block has to close. Each start and each other end of a block does, the
end of a quote does not: it closes that paragraph in place of the quote, and what comes after the quote lands in it
(`not_gained_ofEvents_quoteSample`). In a stream where no quote ends right after such text, the document is the one
without the construct, but for the text in the container that the construct stands in (`gained_ofEvents`). The two
builders first differ in the paragraph that is open (`Trails`), then in a block that is attached (`Grown`).
-/

namespace CommonMark

/-- Whether an event reports running text, markup of it that starts or ends, or what a document has no place for. -/
def Event.isRunning : Event → Bool
  | .start tag | .stop tag => tag.content?.isNone
  | .rule => false
  | _ => true

/-- Whether an event closes the paragraph made for text before it does anything else. -/
def Event.closesFirst : Event → Bool
  | .start tag => tag.content?.isSome
  | .stop .item | .stop (.list _) | .rule => true
  | _ => false

theorem pendingAfter_of_isRunning {e : Event} (he : e.isRunning = true) : pendingAfter true e = true := by
  cases e with
  | start tag => exact he
  | stop tag => exact (congrArg (tag.isMarkup || ·) he).trans (Bool.or_true _)
  | rule => cases he
  | _ => rfl

theorem pendingAfter_of_takes {e : Event} (he : Place.text.takes e = true) (pending : Bool) :
    pendingAfter pending e = (pending || e.shows) := by
  cases e with
  | start _ | stop _ | rule => cases he
  | _ => rfl

theorem Event.textsOfAll_append (es es' : List (Event × Span)) :
    textsOfAll (es ++ es') = textsOfAll es ++ textsOfAll es' := List.flatMap_append

/-- Whether events are those of a construct that a document has no place for, which holds running text alone. -/
inductive IsUnsupported : List (Event × Span) → Prop
  | intro {tag tag' : Tag} (opening closing : Span) {content : List (Event × Span)} (hq : tag.content? = none)
      (hm : tag.isMarkup = false) (htag : tag'.bare = tag.bare) (hcontent : WellNested .text content) :
      IsUnsupported ((.start tag, opening) :: (content ++ [(.stop tag', closing)]))

namespace Builder

open Block

/-! ## Running text as one change -/

/-- What running text does: it leaves no trace, or it is one change of the inlines that it goes to and is pending. -/
inductive Runs (source : Text) (es : List (Event × Span)) : Prop
  | silent (htexts : Event.textsOfAll es = []) (hes : ∀ b : Builder, b.events es = b)
      (hpending : ∀ pending, pendingAfterAll pending es = pending)
  | shown {f : List Inline → List Inline} (hf : Appends f (Event.textsOfAll es))
      (hes : ∀ b : Builder, b.source = source → b.HoldsLiteral = false → b.events es = b.onInlines f)
      (hpending : ∀ pending, pendingAfterAll pending es = true)

section

variable {source : Text} {es es' : List (Event × Span)}

theorem Appends.comp {f g : List Inline → List Inline} {ts ts' : List Text} (hf : Appends f ts) (hg : Appends g ts') :
    Appends (g ∘ f) (ts ++ ts') := by
  intro is
  rw [Function.comp, hg, hf, List.append_assoc]

namespace Runs

theorem append (h : Runs source es) (h' : Runs source es') : Runs source (es ++ es') := by
  cases h with
  | silent htexts hes hpending =>
    cases h' with
    | silent htexts' hes' hpending' =>
      refine .silent ?_ (fun b => ?_) fun pending => ?_
      · rw [Event.textsOfAll_append, htexts, htexts', List.append_nil]
      · rw [events_append, hes, hes']
      · rw [pendingAfterAll_append, hpending, hpending']
    | @shown f hf hes' hpending' =>
      refine .shown (f := f) ?_ (fun b hb hl => ?_) fun pending => ?_
      · rwa [Event.textsOfAll_append, htexts, List.nil_append]
      · rw [events_append, hes, hes' b hb hl]
      · rw [pendingAfterAll_append, hpending']
  | @shown f hf hes hpending =>
    cases h' with
    | silent htexts' hes' hpending' =>
      refine .shown (f := f) ?_ (fun b hb hl => ?_) fun pending => ?_
      · rwa [Event.textsOfAll_append, htexts', List.append_nil]
      · rw [events_append, hes b hb hl, hes']
      · rw [pendingAfterAll_append, hpending', hpending]
    | @shown g hg hes' hpending' =>
      refine .shown (f := g ∘ f) ?_ (fun b hb hl => ?_) fun pending => ?_
      · rw [Event.textsOfAll_append]
        exact hf.comp hg
      · rw [events_append, hes b hb hl, hes' _ ((source_onInlines b f).trans hb) (holdsLiteral_onInlines hl f),
          onInlines_onInlines]
      · rw [pendingAfterAll_append, hpending']

theorem leaf {e : Event} (he : Place.text.takes e = true) (span : Span) : Runs source [(e, span)] := by
  have htexts : Event.textsOfAll [(e, span)] = e.texts := List.append_nil _
  rcases event_inline source he span with ⟨hshows, hnone, hevent⟩ | ⟨hshows, f, hf, hevent⟩
  · refine .silent (htexts.trans hnone) hevent fun pending => ?_
    exact (pendingAfter_of_takes he pending).trans (by rw [hshows, Bool.or_false])
  · refine .shown (htexts ▸ hf) hevent fun pending => ?_
    exact (pendingAfter_of_takes he pending).trans (by rw [hshows, Bool.or_true])

/-- Markup puts what it marks at the end, also when that is nothing. -/
theorem markup (h : Runs source es) {tag tag' : Tag} (opening closing : Span) (hmarkup : tag.isMarkup = true)
    (htag : tag'.bare = tag.bare) : Runs source ((.start tag, opening) :: (es ++ [(.stop tag', closing)])) := by
  obtain ⟨w, hstart⟩ := start_markup hmarkup
  have hpending : ∀ pending,
      pendingAfterAll pending ((.start tag, opening) :: (es ++ [(.stop tag', closing)])) = true := by
    intro pending
    have hm' : tag'.isMarkup = true := (Tag.isMarkup_of_bare htag).trans hmarkup
    rw [pendingAfterAll_node]
    simp [pendingAfter, hm', pendingAfterAll]
  have hnode : ∀ b : Builder, b.events ((.start tag, opening) :: (es ++ [(.stop tag', closing)])) =
      ((b.openInline w).events es).closeInline := by
    intro b
    rw [events_node, hstart, stop_of_bare htag, stop_markup _ hmarkup]
    rfl
  have htexts := textsOfAll_node tag tag' opening closing es []
  cases h with
  | silent hnone hes =>
    refine .shown (f := (· ++ w.close [])) (fun is => ?_) (fun b hb hl => ?_) hpending
    · rw [htexts, hnone, Inline.segmentTextsAll_append, Wrapper.segmentTextsAll_close]
      rfl
    · rw [hnode, hes]
      rfl
  | @shown f hf hes =>
    refine .shown (f := (· ++ w.close (f []))) (fun is => ?_) (fun b hb hl => ?_) hpending
    · rw [htexts, Inline.segmentTextsAll_append, Wrapper.segmentTextsAll_close, hf]
      exact congrArg _ (List.append_nil _).symm
    · rw [hnode, hes (b.openInline w) hb ((holdsLiteral_openInline b w).trans hl)]
      rfl

/-- What a document has no place for does what it holds. -/
theorem unsupported (h : Runs source es) {tag tag' : Tag} (opening closing : Span) (hq : tag.content? = none)
    (hm : tag.isMarkup = false) (htag : tag'.bare = tag.bare) :
    Runs source ((.start tag, opening) :: (es ++ [(.stop tag', closing)])) := by
  have hnode : ∀ b : Builder, b.events ((.start tag, opening) :: (es ++ [(.stop tag', closing)])) = b.events es := by
    intro b
    rw [events_node, start_other b opening hq hm, stop_of_bare htag, stop_other _ hq hm]
    rfl
  have hpending : ∀ pending, pendingAfterAll pending ((.start tag, opening) :: (es ++ [(.stop tag', closing)])) =
      pendingAfterAll pending es := by
    intro pending
    have hq' : tag'.content? = none := (Tag.content?_of_bare htag).trans hq
    have hm' : tag'.isMarkup = false := (Tag.isMarkup_of_bare htag).trans hm
    rw [pendingAfterAll_node]
    simp [pendingAfter, hq, hq', hm', pendingAfterAll]
  have htexts : Event.textsOfAll ((.start tag, opening) :: (es ++ [(.stop tag', closing)])) = Event.textsOfAll es :=
    (textsOfAll_node tag tag' opening closing es []).trans (List.append_nil _)
  cases h with
  | silent hnone hes hsilent =>
    exact .silent (htexts.trans hnone) (fun b => (hnode b).trans (hes b)) fun p => (hpending p).trans (hsilent p)
  | shown hf hes hshown =>
    exact .shown (htexts ▸ hf) (fun b hb hl => (hnode b).trans (hes b hb hl)) fun p => (hpending p).trans (hshown p)

theorem of_wellNested (h : WellNested .text es) (source : Text) : Runs source es := by
  generalize hp : Place.text = p at h
  induction h with
  | nil p => exact .silent rfl (fun _ => rfl) fun _ => rfl
  | leaf span he hes ih =>
    subst hp
    exact (leaf he span).append (ih rfl)
  | block opening closing hb =>
    subst hp
    cases hb
  | @markup p tag tag' opening closing content es ht hmarkup htag hcontent hes ihcontent ih =>
    have hnode := ((ihcontent rfl).markup opening closing hmarkup htag).append (ih hp)
    simpa using hnode
  | @other p tag tag' opening closing content es hlines hq hm htag hcontent hes ihcontent ih =>
    have hnode := ((ihcontent hp).unsupported opening closing hq hm htag).append (ih hp)
    simpa using hnode

end Runs

theorem runs_of_isUnsupported (h : IsUnsupported es) (source : Text) : Runs source es := by
  cases h with
  | intro opening closing hq hm htag hcontent =>
    exact (Runs.of_wellNested hcontent source).unsupported opening closing hq hm htag

end

/-! ## An open paragraph with more text -/

/-- Open blocks that are all containers, given by the innermost and those around it; the outermost is the document. -/
structure Around (top : Frame) (fs : List Frame) : Prop where
  containers : ∀ f ∈ top :: fs, f.block.kind.isContainer = true
  reported : top.implicit = false
  document : fs = [] → top.start = 0

/-- Whether a builder has running text more than another, in a paragraph made for text directly in an open block. -/
inductive Trails (ts : List Text) (top : Frame) (fs : List Frame) : Builder → Builder → Prop
  | intro {source : Text} {inlines : List InlineFrame} {loose : List Bool} {starts : List Nat} {old : List Block}
      {p : Block} {start : Nat} (hp : Carries ts old p) (hstart : old = [] → start = top.start) :
      Trails ts top fs ⟨source, old.map (⟨·, start, true⟩) ++ top :: fs, inlines, loose, starts⟩
        ⟨source, ⟨p, start, true⟩ :: top :: fs, inlines, loose, starts⟩

namespace Trails

variable {ts : List Text} {top : Frame} {fs : List Frame} {b b' : Builder}

theorem onInlines (h : Trails ts top fs b b') (hround : Around top fs) {f : List Inline → List Inline} {ws : List Text}
    (hf : Appends f ws) : Trails ts top fs (b.onInlines f) (b'.onInlines f) := by
  have hk := hround.containers top List.mem_cons_self
  cases h with
  | @intro source inlines loose starts old p start hp hstart =>
    cases inlines with
    | cons i is => exact .intro hp hstart
    | nil =>
      have hcarries := hp.onInlines hf
      have hparagraph : BlockKind.paragraph.isContainer = false := rfl
      have hpushed : Trails ts top fs _ _ := @intro ts top fs source [] loose starts _ _ start hcarries (by simp)
      cases hp with
      | new his =>
        obtain rfl := hstart rfl
        simpa [Builder.onInlines, hk, hparagraph] using hpushed
      | @more q is us vs hkq hq his =>
        simpa [Builder.onInlines, hkq, hparagraph] using hpushed

theorem closeInline (h : Trails ts top fs b b') (hround : Around top fs) :
    Trails ts top fs b.closeInline b'.closeInline := by
  cases h with
  | @intro source inlines loose starts old p start hp hstart =>
    cases inlines with
    | nil => exact .intro hp hstart
    | cons i is =>
      have hrest : Trails ts top fs _ _ := @intro ts top fs source is loose starts _ _ start hp hstart
      have hf : Appends (· ++ i.wrapper.close i.children) (Inline.segmentTextsAll i.children) := by
        intro is
        rw [Inline.segmentTextsAll_append, Wrapper.segmentTextsAll_close]
      exact hrest.onInlines hround hf

theorem openInline (h : Trails ts top fs b b') (w : Wrapper) : Trails ts top fs (b.openInline w) (b'.openInline w) := by
  cases h with
  | intro hp hstart => exact .intro hp hstart

theorem source (h : Trails ts top fs b b') : b'.source = b.source := by
  cases h
  rfl

theorem holdsLiteral (h : Trails ts top fs b b') (hround : Around top fs) :
    b.HoldsLiteral = false ∧ b'.HoldsLiteral = false := by
  have hk : top.block.kind.isVerbatim = false := by
    have hcontainer := hround.containers top List.mem_cons_self
    cases hkind : top.block.kind <;> rw [hkind] at hcontainer <;> first | rfl | cases hcontainer
  cases h with
  | intro hp hstart =>
    cases hp with
    | new his => exact ⟨hk, rfl⟩
    | more hkq hq his => simp [HoldsLiteral, hkq, BlockKind.isVerbatim]

/-- Running text, and markup of it that starts or ends, goes to the same place in both. -/
theorem running (h : Trails ts top fs b b') (hround : Around top fs) {e : Event} (he : e.isRunning = true)
    (span : Span) : Trails ts top fs (b.event span e) (b'.event span e) := by
  have hleaf : Place.text.takes e = true → Trails ts top fs (b.event span e) (b'.event span e) := by
    intro htakes
    rcases event_inline b.source htakes span with ⟨-, -, hevent⟩ | ⟨-, f, hf, hevent⟩
    · rwa [hevent, hevent]
    · rw [hevent b rfl (h.holdsLiteral hround).1, hevent b' h.source (h.holdsLiteral hround).2]
      exact h.onInlines hround hf
  cases e with
  | start tag =>
    have hq : tag.content? = none := Option.isNone_iff_eq_none.1 he
    cases hm : tag.isMarkup with
    | true =>
      obtain ⟨w, hw⟩ := start_markup hm
      rw [event, event, hw, hw]
      exact h.openInline w
    | false =>
      rw [event, event, start_other b span hq hm, start_other b' span hq hm]
      exact h
  | stop tag =>
    have hq : tag.content? = none := Option.isNone_iff_eq_none.1 he
    cases hm : tag.isMarkup with
    | true =>
      rw [event, event, stop_markup b hm, stop_markup b' hm]
      exact h.closeInline hround
    | false =>
      rw [event, event, stop_other b hq hm, stop_other b' hq hm]
      exact h
  | rule => cases he
  | _ => exact hleaf rfl

/-- Once the paragraph closes, it is attached in both or in one, and nothing else is different. -/
theorem closeImplicit (h : Trails ts top fs b b') (hround : Around top fs) (hcounted : b.Counted) :
    Grown ts (addressOf fs) b.closeImplicit b'.closeImplicit := by
  cases h with
  | @intro source inlines loose starts old p start hp hstart =>
    have hclosed : ∀ q : Block, Builder.closeImplicit ⟨source, ⟨q, start, true⟩ :: top :: fs, inlines, loose, starts⟩ =
        attach ⟨source, top :: fs, inlines, loose, starts⟩ q start := fun q => rfl
    -- without the text the paragraph may be missing
    have hold : Builder.closeImplicit ⟨source, old.map (⟨·, start, true⟩) ++ top :: fs, inlines, loose, starts⟩ =
        ⟨source, { top with block.children := top.block.children ++ old } :: fs, inlines, loose,
          if fs.isEmpty then starts ++ old.map fun _ => start else starts⟩ := by
      cases hp with
      | new his =>
        obtain ⟨⟨kind, literal, children, inlines'⟩, start', implicit⟩ := top
        have himplicit : implicit = false := hround.reported
        simp [Builder.closeImplicit, himplicit]
      | more => exact hclosed _
    rw [hclosed, hold]
    cases fs with
    | nil =>
      have hlength : top.block.children.length = starts.length := by
        simpa [Counted, rootSize?] using hcounted
      have hfst : (top.block.children.zip starts).map Prod.fst = top.block.children :=
        List.map_fst_zip (Nat.le_of_eq hlength)
      have hsnd : (top.block.children.zip starts).map Prod.snd = starts := List.map_snd_zip (Nat.le_of_eq hlength.symm)
      have hzero : old = [] → start = 0 := fun h => (hstart h).trans (hround.document rfl)
      have hplaced := GainsPlaced.here (top.block.children.zip starts) [] hp hzero
      let f : Frame := { top with block.children := top.block.children ++ old }
      have hf : f.block.children = ((top.block.children.zip starts) ++ old.map (·, start) ++ []).map Prod.fst := by
        simp [f, hfst, Function.comp_def]
      have hgrows := Grows.document (f := f) (hround.containers top List.mem_cons_self) hf hplaced
      simp only [List.map_append, List.map_cons, List.map_map, List.map_nil, List.append_nil, hfst, hsnd] at hgrows
      exact .intro hgrows
    | cons g fs =>
      let f : Frame := { top with block.children := top.block.children ++ old }
      have hks : ∀ f' ∈ f :: g :: fs, f'.block.kind.isContainer = true := by
        intro f' hmem
        rcases List.mem_cons.1 hmem with rfl | hmem
        · exact hround.containers top List.mem_cons_self
        · exact hround.containers f' (List.mem_cons_of_mem _ hmem)
      have hgains : Gains ts [] f.block.children (top.block.children ++ [p]) := by
        simpa [f] using Gains.here top.block.children [] hp
      have hgrows := Grows.inner starts hks hgains
      rw [List.append_nil] at hgrows
      exact .intro hgrows

end Trails

/-! ## Events after the construct -/

theorem closeImplicit_closeImplicit {b : Builder} (h : b.Sound) : b.closeImplicit.closeImplicit = b.closeImplicit := by
  rcases h.closeImplicit.closeImplicit_cases with ⟨-, hclose⟩ | ⟨f, g, fs, hblocks, himplicit, -⟩
  · exact hclose
  · exact absurd (himplicit.symm.trans (h.reported_closeImplicit f _ hblocks)) (by decide)

theorem event_closeImplicit {b : Builder} (h : b.Sound) {e : Event} (he : e.closesFirst = true) (span : Span) :
    b.closeImplicit.event span e = b.event span e := by
  have hclosed := closeImplicit_closeImplicit h
  cases e with
  | start tag =>
    cases tag with
    | codeBlock info => cases info <;> simp only [event, start, hclosed]
    | paragraph | heading _ | blockQuote | htmlBlock | list _ | item => simp only [event, start, hclosed]
    | _ => cases he
  | stop tag =>
    cases tag with
    | item | list _ => simp only [event, stop, hclosed]
    | _ => cases he
  | rule => simp only [event, hclosed]
  | _ => cases he

/-- While text is pending in a container, no other event can come but the end of a quote. -/
theorem isRunning_or_closesFirst {b : Builder} {tags tags' : List Tag} {pending : Bool} (h : Follows tags pending b)
    {k : BlockKind} {ks : List BlockKind} (hpath : b.path = k :: ks) (hk : k.isContainer = true) {e : Event}
    (hopened : openedAfter? tags e = some tags') (hquote : e ≠ .stop .blockQuote) :
    e.isRunning = true ∨ e.closesFirst = true := by
  cases e with
  | start tag => cases hq : tag.content? <;> simp [Event.isRunning, Event.closesFirst, hq]
  | stop tag =>
    cases hq : tag.content? with
    | none => simp [Event.isRunning, hq]
    | some q =>
      cases tags with
      | nil => cases hopened
      | cons tag' tags =>
        simp only [openedAfter?, Option.ite_none_right_eq_some] at hopened
        have hq' : tag'.content? = some q := (Tag.content?_of_bare hopened.1).symm.trans hq
        have hcontainers := h.path
        simp only [hpath, containers, List.map_cons, List.filterMap_cons, hq', Option.map_some, List.cons_append,
          List.cons.injEq, hk] at hcontainers
        have hblocks : q.hasBlocks = true := hcontainers.1.symm
        refine .inr ?_
        cases tag with
        | item | list _ => rfl
        | blockQuote => exact absurd rfl hquote
        | paragraph | heading _ | codeBlock _ | htmlBlock =>
          cases hq
          cases hblocks
        | _ => cases hq
  | rule => exact .inr rfl
  | _ => exact .inl rfl

namespace Trails

variable {ts : List Text} {top : Frame} {fs : List Frame} {b b' : Builder}

theorem path (h : Trails ts top fs b b') (hround : Around top fs) : b'.path = top.block.kind :: kinds fs := by
  cases h with
  | intro hp hstart => exact (kinds_cons_of_implicit rfl _).trans (kinds_cons_of_reported hround.reported fs)

/-- **The builders stay apart by that text alone.** It is in an open paragraph as long as running text comes, then in a
block that is attached. -/
theorem events (h : Trails ts top fs b b') (hround : Around top fs) (hsound : b.Sound) (hcounted : b.Counted)
    {tags tags' : List Tag} (hfollows : Follows tags true b') {es : List (Event × Span)}
    (hopened : opened? tags es = some tags') (hsettles : settles true es = true) :
    Trails ts top fs (b.events es) (b'.events es) ∨ Grown ts (addressOf fs) (b.events es) (b'.events es) := by
  induction es generalizing b b' tags with
  | nil => exact .inl h
  | cons e es ih =>
    obtain ⟨e, span⟩ := e
    obtain ⟨tags₁, hfirst, hrest⟩ := Option.bind_eq_some_iff.1 hopened
    simp only [settles, Bool.not_true, Bool.false_or, Bool.and_eq_true, decide_eq_true_eq] at hsettles
    have hk := hround.containers top List.mem_cons_self
    rcases isRunning_or_closesFirst hfollows (h.path hround) hk hfirst hsettles.1 with he | he
    · have hfollows' := hfollows.event hfirst (fun hquote => absurd hquote hsettles.1) span
      rw [pendingAfter_of_isRunning he] at hfollows'
      have hsettles' : settles (pendingAfter true e) es = true := hsettles.2
      rw [pendingAfter_of_isRunning he] at hsettles'
      exact ih (h.running hround he span) (hsound.event span e) (hcounted.event span e) hfollows' hrest hsettles'
    · have hgrown := (h.closeImplicit hround hcounted).event hcounted.closeImplicit span e
      rw [event_closeImplicit hsound he, event_closeImplicit hfollows.sound he] at hgrown
      exact .inr (hgrown.events (hcounted.event span e) es)

end Trails

/-! ## Closing -/

/-- What is open may be closed as far as the paragraph made for text before all is. -/
theorem finish_closeImplicit (b : Builder) (ds : List (Nat × Text)) :
    b.closeInlines.closeImplicit.finish ds = b.finish ds := by
  have hinlines : b.closeInlines.closeImplicit.inlines = [] :=
    b.closeInlines.inlines_closeImplicit.trans b.inlines_closeInlines
  have hclosed : b.closeInlines.closeImplicit.closeAll = b.closeAll := by
    rw [closeAll_eq, closeInlines_eq, if_pos hinlines, closeBlocks_closeImplicit, closeAll_eq]
  rw [finish, finish, hclosed]

/-- The address of the innermost of the open blocks is that of the last block on its level in the finished document. -/
theorem lastAddress_closeBlocks (n : Nat) {b : Builder} {f : Frame} {fs : List Frame} (h : b.blocks = f :: fs) :
    b.closeBlocks.root.lastAddress (fs.length + n) = addressOf fs ++ f.block.lastAddress n := by
  induction fs generalizing b f n with
  | nil =>
    rw [closeBlocks, if_pos (by simp [h])]
    simp [root, h, addressOf]
  | cons g fs ih =>
    have hblocks : b.closeBlock.blocks = { g with block.children := g.block.children ++ [f.block] } :: fs := by
      rw [closeBlock, h]
      rfl
    have hrest := ih (n + 1) hblocks
    rw [closeBlocks_closeBlock] at hrest
    have hlength : (g :: fs).length + n = fs.length + (n + 1) := by
      rw [List.length_cons]
      omega
    rw [hlength, hrest]
    simp [lastAddress, addressOf]

theorem Trails.finish {ts : List Text} {top : Frame} {fs : List Frame} {b b' : Builder} (h : Trails ts top fs b b')
    (hround : Around top fs) (hcounted : b.Counted) (ds : List (Nat × Text)) :
    Gained ts (addressOf fs) (b.finish ds) (b'.finish ds) := by
  have hclosed : Trails ts top fs b.closeInlines b'.closeInlines := by
    have hlength : b'.inlines.length = b.inlines.length := by
      cases h
      rfl
    rw [← Builder.repeat_closeInline _ rfl, ← Builder.repeat_closeInline _ hlength]
    generalize b.inlines.length = n
    induction n with
    | zero => exact h
    | succ n ih => exact ih.closeInline hround
  have hcounted' : b.closeInlines.Counted := by
    rw [← Builder.repeat_closeInline _ rfl]
    exact iterate (P := Counted) (fun _ => Counted.closeInline) hcounted _
  have hgrown := (hclosed.closeImplicit hround hcounted').finish hcounted'.closeImplicit ds
  rwa [finish_closeImplicit, finish_closeImplicit] at hgrown

/-! ## Where a block may come -/

theorem kinds_of_reported {fs : List Frame} (h : ∀ f ∈ fs, f.implicit = false) : kinds fs = fs.map (·.block.kind) := by
  rw [kinds, List.filter_eq_self.2 fun f hf => by simp [h f hf]]

/-- Where blocks may come, only containers are open, and perhaps the paragraph made for text in the innermost one. -/
theorem Follows.around {tags : List Tag} {pending : Bool} {b : Builder} (h : Follows tags pending b)
    (hp : (placeIn tags).hasBlocks = true) (hgrounded : b.Grounded) :
    ∃ top fs, Around top fs ∧ fs.length = depth tags ∧
      (b.blocks = top :: fs ∨ ∃ p, b.blocks = p :: top :: fs ∧ p.implicit = true ∧ p.block.kind = .paragraph) := by
  have hof : ∀ top fs, (∀ f ∈ top :: fs, f.implicit = false) → b.path = kinds (top :: fs) →
      b.blocks.getLast? = (top :: fs).getLast? → Around top fs ∧ fs.length = depth tags := by
    intro top fs hreported hpath hlast
    rw [kinds_of_reported hreported] at hpath
    have hlength := congrArg List.length h.path
    rw [hpath, List.length_map, List.length_map, List.length_append, length_containers] at hlength
    refine ⟨⟨fun f hf => ?_, hreported top List.mem_cons_self, ?_⟩, by simpa using hlength⟩
    · exact (h.between hp).path _ (hpath ▸ List.mem_map_of_mem hf)
    · rintro rfl
      simpa [Grounded, hlast] using hgrounded
  have hsound := h.sound
  rcases hblocks : b.blocks with _ | ⟨f, fs⟩
  · exact absurd hblocks h.sound.blocks_ne_nil
  · rw [Sound, hblocks] at hsound
    cases himplicit : f.implicit with
    | false =>
      have hreported : ∀ f' ∈ f :: fs, f'.implicit = false := by
        intro f' hf'
        rcases List.mem_cons.1 hf' with rfl | hf'
        · exact himplicit
        · exact hsound.implicit_tail f' hf'
      obtain ⟨hround, hlength⟩ := hof f fs hreported (by rw [Builder.path, hblocks]) (by rw [hblocks])
      exact ⟨f, fs, hround, hlength, .inl rfl⟩
    | true =>
      cases fs with
      | nil => exact absurd (himplicit.symm.trans (Frame.IsRoot.reported hsound)) (by decide)
      | cons g fs =>
        have hpath : b.path = kinds (g :: fs) := by rw [Builder.path, hblocks, kinds_cons_of_implicit himplicit]
        obtain ⟨hround, hlength⟩ := hof g fs hsound.implicit_tail hpath (by rw [hblocks]; rfl)
        exact ⟨g, fs, hround, hlength, .inr ⟨f, rfl, himplicit, (hsound.1.implicit himplicit).1⟩⟩

section

variable {b : Builder} {top : Frame} {fs : List Frame}
  (hblocks : b.blocks = top :: fs ∨ ∃ p, b.blocks = p :: top :: fs ∧ p.implicit = true ∧ p.block.kind = .paragraph)
  (hinlines : b.inlines = [])
include hblocks hinlines

/-- There text makes a paragraph, or it goes to the end of the one that is open. -/
theorem trails_onInlines (hround : Around top fs) {f : List Inline → List Inline} {ts : List Text}
    (hf : Appends f ts) : Trails ts top fs b (b.onInlines f) := by
  obtain ⟨source, blocks, inlines, loose, starts⟩ := b
  simp only at hinlines hblocks
  subst hinlines
  rcases hblocks with rfl | ⟨⟨p, start, implicit⟩, rfl, himplicit, hkind⟩
  · have hnew : Trails ts top fs _ _ :=
      @Trails.intro ts top fs source [] loose starts [] _ top.start (.new (hf [])) fun _ => rfl
    simpa [onInlines, hround.containers top List.mem_cons_self] using hnew
  · simp only at himplicit hkind
    subst himplicit
    have hparagraph : BlockKind.paragraph.isContainer = false := rfl
    have hold : Inline.segmentTextsAll p.inlines = Inline.segmentTextsAll p.inlines ++ [] := (List.append_nil _).symm
    have hmore := Carries.more hkind hold ((hf p.inlines).trans (List.append_nil _).symm)
    have hopen : Trails ts top fs _ _ :=
      @Trails.intro ts top fs source [] loose starts [p] _ start hmore fun hnil => absurd hnil (List.cons_ne_nil p [])
    simpa [onInlines, hkind, hparagraph] using hopen

theorem lastAddress_finish : (b.finish []).lastAddress fs.length = addressOf fs := by
  have hroot : b.finish [] = b.closeBlocks.root := by
    have hclosed : b.closeAll = b.closeBlocks := by rw [closeAll_eq, closeInlines_eq, if_pos hinlines]
    exact congrArg root hclosed
  rw [hroot]
  rcases hblocks with hblocks | ⟨p, hblocks, -⟩
  · have haddress := lastAddress_closeBlocks 0 hblocks
    simpa [lastAddress] using haddress
  · have hclosed : b.closeBlock.blocks = { top with block.children := top.block.children ++ [p.block] } :: fs := by
      rw [closeBlock, hblocks]
      rfl
    have haddress := lastAddress_closeBlocks 0 hclosed
    rw [closeBlocks_closeBlock] at haddress
    simpa [lastAddress] using haddress

end

end Builder

open Builder

/-- **A construct that a document has no place for leaves the blocks around it as they are**, wherever blocks may
stand: its text is put into the container that was opened last, as a paragraph or in one, and nothing else is
different. But no quote may end right after such text. -/
theorem gained_ofEvents (source : Text) (ds : List (Nat × Text)) {before c after : List (Event × Span)}
    {tags : List Tag} (hbefore : opened? [] before = some tags) (hplace : (placeIn tags).hasBlocks = true)
    (hc : IsUnsupported c) (hafter : (opened? tags after).isSome = true)
    (hsettles : settles false (before ++ c ++ after) = true) :
    let without := Block.ofEvents source (before ++ after) ds
    let whole := Block.ofEvents source (before ++ c ++ after) ds
    let address := (Block.ofEvents source before []).lastAddress (depth tags)
    whole = without ∧ Event.textsOfAll c = [] ∨ Block.Gained (Event.textsOfAll c) address without whole := by
  intro without whole address
  obtain ⟨tags', hafter⟩ := Option.isSome_iff_exists.1 hafter
  rw [List.append_assoc, settles_append, Bool.and_eq_true, settles_append, Bool.and_eq_true] at hsettles
  obtain ⟨hsettlesBefore, -, hsettlesAfter⟩ := hsettles
  have hfollows := (follows_new source).events hbefore hsettlesBefore
  have hcounted := (counted_new source).events before
  have hbetween := hfollows.between hplace
  have hgrounded := Grounded.kept.events (grounded_new source) before
  obtain ⟨top, fs, hround, hdepth, hblocks⟩ := hfollows.around hplace hgrounded
  have haddress : address = addressOf fs := by
    rw [← lastAddress_finish hblocks hbetween.inlines, hdepth]
    rfl
  cases runs_of_isUnsupported hc ((new source).events before).source with
  | silent htexts hes hpending =>
    refine .inl ⟨?_, htexts⟩
    simp only [whole, without, Block.ofEvents, events_append, hes]
  | @shown f hf hes hpending =>
    refine .inr ?_
    have hevents := hes _ rfl (holdsLiteral_of_path hfollows.sound hbetween.path)
    rw [hpending] at hsettlesAfter
    have htrails := trails_onInlines hblocks hbetween.inlines hround hf
    have hwhole : whole = (((new source).events before).onInlines f |>.events after).finish ds := by
      simp only [whole, Block.ofEvents, events_append, hevents]
    have hwithout : without = (((new source).events before).events after).finish ds := by
      simp only [without, Block.ofEvents, events_append]
    rw [hwhole, hwithout, haddress]
    rcases htrails.events hround hfollows.sound hcounted (hfollows.onInlines f) hafter hsettlesAfter with h | h
    · exact h.finish hround (hcounted.events after) ds
    · exact h.finish (hcounted.events after) ds

/-- A table in a quote, with a paragraph after it. -/
theorem gained_ofEvents_tableSample :
    let span : Span := ⟨0, 0⟩
    let before : List (Event × Span) := [(.start .blockQuote, span)]
    let c : List (Event × Span) := [(.start .table, span), (.start .tableHead, span), (.start .tableCell, span),
      (.text ['a'], span), (.stop .tableCell, span), (.stop .tableHead, span), (.stop .table, span)]
    let after : List (Event × Span) :=
      [(.start .paragraph, span), (.text ['b'], span), (.stop .paragraph, span), (.stop .blockQuote, span)]
    (opened? [] before = some [.blockQuote] ∧ IsUnsupported c ∧ settles false (before ++ c ++ after) = true) ∧
      Block.Gained [['a']] [0] (Block.ofEvents [] (before ++ after) [])
        (Block.ofEvents [] (before ++ c ++ after) []) := by
  intro span before c after
  have hcell : WellNested .text [(.text ['a'], span)] := .leaf span rfl (.nil _)
  have hhead : WellNested .text
      [(.start .tableCell, span), (.text ['a'], span), (.stop .tableCell, span)] :=
    .other span span (by decide) rfl rfl rfl hcell (.nil _)
  have htable : WellNested .text [(.start .tableHead, span), (.start .tableCell, span), (.text ['a'], span),
      (.stop .tableCell, span), (.stop .tableHead, span)] := .other span span (by decide) rfl rfl rfl hhead (.nil _)
  have hc : IsUnsupported c := .intro span span rfl rfl rfl htable
  have hbefore : opened? [] before = some [.blockQuote] := by decide
  have hsettles : settles false (before ++ c ++ after) = true := by decide
  refine ⟨⟨hbefore, hc, hsettles⟩, ?_⟩
  have hafter : (opened? [.blockQuote] after).isSome = true := by decide
  rcases gained_ofEvents [] [] hbefore rfl hc hafter hsettles with ⟨-, htexts⟩ | hgained
  · exact absurd htexts (by decide)
  · exact hgained

/-- Metadata in a quote, with nothing after it, and a paragraph after the quote, which lands in the quote. -/
theorem not_gained_ofEvents_quoteSample :
    let span : Span := ⟨0, 0⟩
    let before : List (Event × Span) := [(.start .blockQuote, span)]
    let c : List (Event × Span) := [(.start .metadataBlock, span), (.text ['x'], span), (.stop .metadataBlock, span)]
    let after : List (Event × Span) :=
      [(.stop .blockQuote, span), (.start .paragraph, span), (.text ['y'], span), (.stop .paragraph, span)]
    let without := Block.ofEvents [] (before ++ after) []
    let whole := Block.ofEvents [] (before ++ c ++ after) []
    (WellNested .blocks (before ++ after) ∧ opened? [] before = some [.blockQuote] ∧ IsUnsupported c) ∧
      without.children.map (·.kind) = [.blockQuote, .paragraph] ∧ whole.children.map (·.kind) = [.blockQuote] ∧
      ∀ ts address, ¬ Block.Gained ts address without whole := by
  intro span before c after without whole
  have hbefore : opened? [] before = some [.blockQuote] := by decide
  have hc : IsUnsupported c := .intro span span rfl rfl rfl (.leaf span rfl (.nil _))
  have hparagraph : WellNested .blocks [(.start .paragraph, span), (.text ['y'], span), (.stop .paragraph, span)] :=
    .block span span rfl rfl rfl (.leaf span rfl (.nil _)) (.nil _)
  have hnested : WellNested .blocks (before ++ after) := .block span span rfl rfl rfl (.nil _) hparagraph
  have hwithout : without.children.map (·.kind) = [.blockQuote, .paragraph] := by decide
  have hwhole : whole.children.map (·.kind) = [.blockQuote] := by decide
  refine ⟨⟨hnested, hbefore, hc⟩, hwithout, hwhole, ?_⟩
  rintro ts address ⟨cs, hgained, hgains⟩
  -- a text takes no block away
  have hlength := hgains.length_le
  have hcs : whole.children = cs := congrArg (·.children) hgained
  have htwo := congrArg List.length hwithout
  have hone := congrArg List.length hwhole
  rw [List.length_map] at htwo hone
  rw [← hcs, htwo, hone] at hlength
  exact absurd hlength (by decide)

end CommonMark
