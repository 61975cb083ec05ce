import CommonMark.Proofs.Kept

/-!
# Trees with one text more

Two builders may differ in one place: in one of them a container has a paragraph for a text that the other does not
have, or has it longer by that text (`Gains`). What a builder does with an event depends on no block that is attached
already, so the two stay so whatever events they take (`Grown.event`), and so are the documents that they finish
(`Grown.finish`). The place is told by an address: how many blocks stand before each block on the way to it.
-/

namespace CommonMark

namespace Block

/-! ## Places in a tree -/

/-- How many of some blocks are no link definitions, which are merged into a document when it is finished. -/
def number (bs : List Block) : Nat := bs.countP (!·.kind.isDefinition)

/-- The address of the last block that is some levels below a block. -/
def lastAddress : Nat → Block → List Nat
  | 0, _ => []
  | n + 1, b => number b.children.dropLast :: b.children.getLast?.elim [] (lastAddress n)

/-- Whether a paragraph is what some blocks become when a text is put there: a new one for the text, or the one that
was there with the text somewhere in it. -/
inductive Carries (ts : List Text) : List Block → Block → Prop
  | new {is : List Inline} (his : Inline.segmentTextsAll is = ts) :
      Carries ts [] { kind := .paragraph, inlines := is }
  | more {p : Block} {is : List Inline} {us vs : List Text} (hk : p.kind = .paragraph)
      (hp : Inline.segmentTextsAll p.inlines = us ++ vs) (his : Inline.segmentTextsAll is = us ++ ts ++ vs) :
      Carries ts [p] { p with inlines := is }

/-- Whether blocks are others with a text put directly among them, or else into the container at an address. -/
inductive Gains (ts : List Text) : List Nat → List Block → List Block → Prop
  | here (pre post : List Block) {old : List Block} {p : Block} (hp : Carries ts old p) :
      Gains ts [] (pre ++ old ++ post) (pre ++ p :: post)
  | within (pre post : List Block) {c : Block} {cs : List Block} {address : List Nat}
      (hk : c.kind.isContainer = true) (hc : Gains ts address c.children cs) :
      Gains ts (number pre :: address) (pre ++ c :: post) (pre ++ { c with children := cs } :: post)

/-- Whether a block is another with a text put into the container at an address. Nothing else is different. -/
def Gained (ts : List Text) (address : List Nat) (b b' : Block) : Prop :=
  ∃ cs, b' = { b with children := cs } ∧ Gains ts address b.children cs

variable {ts : List Text} {address : List Nat}

theorem Gains.append {bs bs' : List Block} (h : Gains ts address bs bs') (cs : List Block) :
    Gains ts address (bs ++ cs) (bs' ++ cs) := by
  cases h with
  | here pre post hp => simpa using Gains.here pre (post ++ cs) hp
  | within pre post hk hc => simpa using Gains.within pre (post ++ cs) hk hc

/-- A text adds at most one block to those around it. -/
theorem Gains.length_le {bs bs' : List Block} (h : Gains ts address bs bs') : bs.length ≤ bs'.length := by
  cases h with
  | here pre post hp => cases hp <;> simp
  | within pre post hk hc => simp

/-- Running text goes to the end of the paragraph, or makes it where there is none yet. -/
theorem Carries.onInlines {old : List Block} {p : Block} (h : Carries ts old p) {f : List Inline → List Inline}
    {ws : List Text} (hf : ∀ is, Inline.segmentTextsAll (f is) = Inline.segmentTextsAll is ++ ws) :
    let q := old.headD { kind := .paragraph }
    Carries ts [{ q with inlines := f q.inlines }] { p with inlines := f p.inlines } := by
  cases h with
  | @new is his =>
    have hold : Inline.segmentTextsAll (f []) = [] ++ ws := hf []
    have hnew : Inline.segmentTextsAll (f is) = [] ++ ts ++ ws := by rw [hf, his, List.nil_append]
    exact .more rfl hold hnew
  | @more p is us vs hk hp his =>
    have hold : Inline.segmentTextsAll (f p.inlines) = us ++ (vs ++ ws) := by rw [hf, hp, List.append_assoc]
    have hnew : Inline.segmentTextsAll (f is) = us ++ ts ++ (vs ++ ws) := by rw [hf, his, List.append_assoc]
    exact .more hk hold hnew

/-! ## Offsets and definitions -/

/-- The same for blocks with their offsets. A new paragraph has the offset of the document. -/
inductive GainsPlaced (ts : List Text) : List Nat → List (Block × Nat) → List (Block × Nat) → Prop
  | here (pre post : List (Block × Nat)) {old : List Block} {p : Block} {start : Nat} (hp : Carries ts old p)
      (hstart : old = [] → start = 0) :
      GainsPlaced ts [] (pre ++ old.map (·, start) ++ post) (pre ++ (p, start) :: post)
  | within (pre post : List (Block × Nat)) {c : Block} {cs : List Block} {address : List Nat} (start : Nat)
      (hk : c.kind.isContainer = true) (hc : Gains ts address c.children cs) :
      GainsPlaced ts (number (pre.map Prod.fst) :: address) (pre ++ (c, start) :: post)
        (pre ++ ({ c with children := cs }, start) :: post)

theorem GainsPlaced.append {bs bs' : List (Block × Nat)} (h : GainsPlaced ts address bs bs')
    (cs : List (Block × Nat)) : GainsPlaced ts address (bs ++ cs) (bs' ++ cs) := by
  cases h with
  | here pre post hp hstart => simpa using GainsPlaced.here pre (post ++ cs) hp hstart
  | within pre post start hk hc => simpa using GainsPlaced.within pre (post ++ cs) start hk hc

/-- Without the offsets. -/
theorem GainsPlaced.gains {bs bs' : List (Block × Nat)} (h : GainsPlaced ts address bs bs') :
    Gains ts address (bs.map Prod.fst) (bs'.map Prod.fst) := by
  cases h with
  | @here pre post old p start hp hstart =>
    have hfst : (old.map fun block => (block, start)).map Prod.fst = old := by
      rw [List.map_map]
      exact List.map_id old
    simpa only [List.map_append, List.map_cons, hfst] using Gains.here (pre.map Prod.fst) (post.map Prod.fst) hp
  | within pre post start hk hc => simpa using Gains.within (pre.map Prod.fst) (post.map Prod.fst) hk hc

theorem number_append (bs cs : List Block) : number (bs ++ cs) = number bs + number cs := List.countP_append

theorem number_definitions (ds : List (Nat × Text)) : number (ds.map fun d => .definition d.2) = 0 := by
  simp [number, definition, ofKind, BlockKind.isDefinition]

/-- What comes before a block in the finished document does not depend on it or on what comes after it. -/
theorem placeDefinitions_append (bs : List (Block × Nat)) (ds : List (Nat × Text)) :
    ∃ before left, number before = number (bs.map Prod.fst) ∧
      ∀ rest, placeDefinitions (bs ++ rest) ds = before ++ placeDefinitions rest left := by
  induction bs generalizing ds with
  | nil => exact ⟨[], ds, rfl, fun _ => rfl⟩
  | cons b bs ih =>
    obtain ⟨block, start⟩ := b
    obtain ⟨before, left, hnumber, hplace⟩ := ih (ds.dropWhile (·.1 < start))
    refine ⟨(ds.takeWhile (·.1 < start)).map (fun d => .definition d.2) ++ block :: before, left, ?_, fun rest => ?_⟩
    · rw [number_append, number_definitions, Nat.zero_add, List.map_cons]
      exact (number_append [block] before).trans (hnumber ▸ (number_append [block] _).symm)
    · rw [List.cons_append, placeDefinitions, hplace, List.append_assoc, List.cons_append]

/-- Definitions stay where they are. -/
theorem GainsPlaced.placeDefinitions {bs bs' : List (Block × Nat)} (h : GainsPlaced ts address bs bs')
    (ds : List (Nat × Text)) : Gains ts address (placeDefinitions bs ds) (placeDefinitions bs' ds) := by
  cases h with
  | @here pre post old p start hp hstart =>
    obtain ⟨before, left, -, hplace⟩ := placeDefinitions_append pre ds
    rw [List.append_assoc, hplace, hplace]
    cases hp with
    | new his =>
      -- none of them comes before a block at the offset of the document
      have hnone : ∀ d : Nat × Text, decide (d.1 < start) = false := by simp [hstart rfl]
      have htake : left.takeWhile (·.1 < start) = [] := by cases left <;> simp [hnone]
      have hdrop : left.dropWhile (·.1 < start) = left := by cases left <;> simp [hnone]
      have hhere := Gains.here before (CommonMark.placeDefinitions post left) (.new his)
      simpa only [CommonMark.placeDefinitions, htake, hdrop, List.map_nil, List.nil_append, List.append_nil] using hhere
    | more hk hp his =>
      have hhere := Gains.here (before ++ (left.takeWhile (·.1 < start)).map fun d => .definition d.2)
        (CommonMark.placeDefinitions post (left.dropWhile (·.1 < start))) (.more hk hp his)
      simpa only [CommonMark.placeDefinitions, List.map_cons, List.map_nil, List.cons_append, List.nil_append,
        List.append_assoc] using hhere
  | @within pre post c cs rest start hk hc =>
    obtain ⟨before, left, hnumber, hplace⟩ := placeDefinitions_append pre ds
    have hbelow := Gains.within (before ++ (left.takeWhile (·.1 < start)).map fun d => .definition d.2)
      (CommonMark.placeDefinitions post (left.dropWhile (·.1 < start))) hk hc
    rw [number_append, number_definitions, Nat.add_zero, hnumber] at hbelow
    simpa only [hplace, CommonMark.placeDefinitions, List.append_assoc] using hbelow

end Block

open Block

namespace Builder

/-! ## Open blocks -/

/-- The address of the innermost of some open blocks, given those around it. -/
def addressOf (fs : List Frame) : List Nat := fs.reverse.map fun f => number f.block.children

/-- Whether open blocks, innermost first, with the offsets of the document's blocks are others with a text put into a
block that is attached or into an open one. -/
inductive Grows (ts : List Text) : List Nat → List Frame → List Nat → List Frame → List Nat → Prop
  | document {f : Frame} {address : List Nat} {bs bs' : List (Block × Nat)} (hk : f.block.kind.isContainer = true)
      (hf : f.block.children = bs.map Prod.fst) (h : GainsPlaced ts address bs bs') :
      Grows ts address [f] (bs.map Prod.snd) [{ f with block.children := bs'.map Prod.fst }] (bs'.map Prod.snd)
  | inner {f g : Frame} {fs : List Frame} {address : List Nat} {cs : List Block} (starts : List Nat)
      (hk : ∀ f' ∈ f :: g :: fs, f'.block.kind.isContainer = true) (h : Gains ts address f.block.children cs) :
      Grows ts (addressOf (g :: fs) ++ address) (f :: g :: fs) starts ({ f with block.children := cs } :: g :: fs)
        starts
  | above (f : Frame) {fs fs' : List Frame} {address starts starts' : List Nat}
      (h : Grows ts address fs starts fs' starts') : Grows ts address (f :: fs) starts (f :: fs') starts'

namespace Grows

variable {ts : List Text} {address starts starts' : List Nat} {f : Frame} {fs fs' : List Frame}

theorem ne_nil (h : Grows ts address fs starts fs' starts') : fs ≠ [] ∧ fs' ≠ [] := by
  cases h <;> exact ⟨List.cons_ne_nil _ _, List.cons_ne_nil _ _⟩

theorem length (h : Grows ts address fs starts fs' starts') : fs'.length = fs.length := by
  induction h with
  | document | inner => rfl
  | above f h ih => simp [ih]

/-- The innermost blocks differ in their children alone. -/
theorem head (h : Grows ts address (f :: fs) starts fs' starts') :
    ∃ cs gs, fs' = { f with block.children := cs } :: gs := by
  obtain ⟨⟨kind, literal, children, inlines⟩, start, implicit⟩ := f
  cases h <;> exact ⟨_, _, rfl⟩

/-- The innermost block may change in all but its children. -/
theorem replace {cs : List Block} {gs : List Frame} {g : Frame}
    (h : Grows ts address (f :: fs) starts ({ f with block.children := cs } :: gs) starts')
    (hg : g.block.children = f.block.children)
    (hk : f.block.kind.isContainer = true → g.block.kind.isContainer = true) :
    Grows ts address (g :: fs) starts ({ g with block.children := cs } :: gs) starts' := by
  generalize hf' : ({ f with block.children := cs } : Frame) = f' at h
  cases h with
  | document hkf hf h =>
    obtain rfl : cs = _ := congrArg (·.block.children) hf'
    exact .document (hk hkf) (hg.trans hf) h
  | inner starts hks h =>
    obtain rfl : cs = _ := congrArg (·.block.children) hf'
    refine .inner starts (fun f' hmem => ?_) (hg ▸ h)
    rcases List.mem_cons.1 hmem with rfl | hmem
    · exact hk (hks f List.mem_cons_self)
    · exact hks f' (List.mem_cons_of_mem _ hmem)
  | above _ h =>
    obtain rfl : cs = g.block.children := (congrArg (·.block.children) hf').trans hg.symm
    obtain ⟨⟨kind, literal, children, inlines⟩, start, implicit⟩ := g
    exact .above _ h

end Grows

/-- Whether a builder is another with a text put into one place. -/
inductive Grown (ts : List Text) (address : List Nat) : Builder → Builder → Prop
  | intro {source : Text} {blocks blocks' : List Frame} {inlines : List InlineFrame} {loose : List Bool}
      {starts starts' : List Nat} (h : Grows ts address blocks starts blocks' starts') :
      Grown ts address ⟨source, blocks, inlines, loose, starts⟩ ⟨source, blocks', inlines, loose, starts'⟩

namespace Grown

variable {ts : List Text} {address : List Nat} {b b' : Builder}

/-! ## Steps -/

theorem source (h : Grown ts address b b') : b'.source = b.source := by
  cases h
  rfl

theorem inlines (h : Grown ts address b b') : b'.inlines = b.inlines := by
  cases h
  rfl

theorem loose (h : Grown ts address b b') : b'.loose = b.loose := by
  cases h
  rfl

/-- What a step asks of the innermost block, unless it is about its children, has the same answer. -/
theorem head (h : Grown ts address b b') {p : Frame → Bool}
    (hp : ∀ (f : Frame) (cs : List Block), p { f with block.children := cs } = p f) :
    b'.blocks.head?.any p = b.blocks.head?.any p := by
  cases h with
  | @intro _ blocks _ _ _ _ _ h =>
    cases blocks with
    | nil => exact absurd rfl h.ne_nil.1
    | cons f fs =>
      obtain ⟨cs, gs, rfl⟩ := h.head
      exact hp f cs

theorem attach (h : Grown ts address b b') (block : Block) (start : Nat) :
    Grown ts address (b.attach block start) (b'.attach block start) := by
  cases h with
  | @intro _ _ _ _ _ starts _ h =>
    cases h with
    | @document f _ bs bs' hk hf h =>
      let g : Frame := { f with block.children := f.block.children ++ [block] }
      have hg : g.block.children = (bs ++ [(block, start)]).map Prod.fst := by simp [g, hf]
      have hattached := Grows.document (f := g) hk hg (h.append [(block, start)])
      rw [List.map_append, List.map_append, List.map_append] at hattached
      exact .intro hattached
    | @inner f g fs _ _ _ hks h =>
      refine .intro (Grows.inner (f := { f with block.children := f.block.children ++ [block] }) starts ?_
        (h.append [block]))
      intro f' hmem
      rcases List.mem_cons.1 hmem with rfl | hmem
      · exact hks f List.mem_cons_self
      · exact hks f' (List.mem_cons_of_mem _ hmem)
    | @above f fs fs' _ _ _ h =>
      have hstarts : fs.isEmpty = false ∧ fs'.isEmpty = false := by simpa using h.ne_nil
      simp only [Builder.attach, hstarts.1, hstarts.2]
      exact .intro (.above _ h)

theorem openBlock (h : Grown ts address b b') (block : Block) (start : Nat) :
    Grown ts address (b.openBlock block start) (b'.openBlock block start) := by
  cases h with
  | intro h => exact .intro (.above _ h)

/-- A block that closes takes the text along, into the block around it. -/
theorem closeBlock (h : Grown ts address b b') (hcounted : b.Counted) :
    Grown ts address b.closeBlock b'.closeBlock := by
  cases h with
  | @intro source _ _ inlines loose starts starts' h =>
    cases h with
    | document hk hf h => exact .intro (.document hk hf h)
    | @inner f g fs rest _ _ hks h =>
      have hk := hks f List.mem_cons_self
      have hg := hks g (by simp)
      cases fs with
      | nil =>
        -- the block around is the document, whose blocks have offsets
        have hlength : g.block.children.length = starts.length := by
          simpa [Counted, rootSize?] using hcounted
        have hfst : (g.block.children.zip starts).map Prod.fst = g.block.children :=
          List.map_fst_zip (Nat.le_of_eq hlength)
        have hsnd : (g.block.children.zip starts).map Prod.snd = starts :=
          List.map_snd_zip (Nat.le_of_eq hlength.symm)
        have hplaced := GainsPlaced.within (g.block.children.zip starts) [] f.start hk h
        let g' : Frame := { g with block.children := g.block.children ++ [f.block] }
        have hclosed := Grows.document (f := g') hg (by rw [List.map_append, hfst]; rfl) hplaced
        rw [List.map_append, List.map_append, List.map_append, hfst, hsnd] at hclosed
        exact .intro hclosed
      | cons g₂ fs =>
        let g' : Frame := { g with block.children := g.block.children ++ [f.block] }
        have hks' : ∀ f' ∈ g' :: g₂ :: fs, f'.block.kind.isContainer = true := by
          intro f' hmem
          rcases List.mem_cons.1 hmem with rfl | hmem
          · exact hg
          · exact hks f' (List.mem_cons_of_mem _ (List.mem_cons_of_mem _ hmem))
        have haddress : addressOf (g :: g₂ :: fs) ++ rest =
            addressOf (g₂ :: fs) ++ number g.block.children :: rest := by simp [addressOf]
        rw [haddress]
        exact .intro (.inner starts hks' (.within g.block.children [] hk h))
    | @above f fs fs' _ _ _ h =>
      cases fs with
      | nil => exact absurd rfl h.ne_nil.1
      | cons g fs =>
        obtain ⟨cs, gs, rfl⟩ := h.head
        have hrest : Grown ts address ⟨source, g :: fs, inlines, loose, starts⟩
            ⟨source, { g with block.children := cs } :: gs, inlines, loose, starts'⟩ := .intro h
        exact hrest.attach f.block f.start

theorem closeImplicit (h : Grown ts address b b') (hcounted : b.Counted) :
    Grown ts address b.closeImplicit b'.closeImplicit := by
  unfold Builder.closeImplicit
  rw [h.head (p := (·.implicit)) fun _ _ => rfl]
  split
  · exact h.closeBlock hcounted
  · exact h

theorem onInlines (h : Grown ts address b b') (f : List Inline → List Inline) :
    Grown ts address (b.onInlines f) (b'.onInlines f) := by
  cases h with
  | @intro source blocks blocks' inlines loose starts starts' h =>
    cases inlines with
    | cons i is => exact .intro h
    | nil =>
      cases blocks with
      | nil => exact absurd rfl h.ne_nil.1
      | cons top fs =>
        obtain ⟨cs, gs, rfl⟩ := h.head
        by_cases hc : top.block.kind.isContainer = true
        · simp only [Builder.onInlines, hc, ite_true]
          exact .intro (.above _ h)
        · simp only [Builder.onInlines, hc]
          exact .intro (h.replace (g := { top with block.inlines := f top.block.inlines }) rfl id)

theorem getD_pushLiteral? {c c' : Builder} (h : Grown ts address b b') (h' : Grown ts address c c') (s : Segment) :
    Grown ts address ((b.pushLiteral? s).getD c) ((b'.pushLiteral? s).getD c') := by
  cases h with
  | @intro source blocks blocks' inlines loose starts starts' h =>
    rcases blocks with _ | ⟨⟨⟨kind, literal, children, inlines'⟩, start, implicit⟩, fs⟩
    · exact absurd rfl h.ne_nil.1
    · obtain ⟨cs, gs, rfl⟩ := h.head
      rcases literal with _ | ⟨t⟩ | ⟨content⟩
      · exact h'
      · exact h'
      · cases kind with
        | indentedCode | fencedCode _ | htmlBlock =>
          exact .intro (h.replace (g := ⟨⟨_, some (.segmented (content.push s)), children, inlines'⟩, start, implicit⟩)
            rfl id)
        | _ => exact h'

theorem openInline (h : Grown ts address b b') (w : Wrapper) :
    Grown ts address (b.openInline w) (b'.openInline w) := by
  cases h with
  | intro h => exact .intro h

theorem closeInline (h : Grown ts address b b') : Grown ts address b.closeInline b'.closeInline := by
  cases h with
  | @intro source blocks blocks' inlines loose starts starts' h =>
    cases inlines with
    | nil => exact .intro h
    | cons i is =>
      have hrest : Grown ts address ⟨source, blocks, is, loose, starts⟩
          ⟨source, blocks', is, loose, starts'⟩ := .intro h
      exact hrest.onInlines (· ++ i.wrapper.close i.children)

theorem withLoose (h : Grown ts address b b') (loose : List Bool) :
    Grown ts address { b with loose } { b' with loose } := by
  cases h with
  | intro h => exact .intro h

theorem markLoose (h : Grown ts address b b') : Grown ts address b.markLoose b'.markLoose := by
  cases h with
  | @intro _ _ _ _ loose _ _ h => cases loose <;> exact .intro h

theorem settleList (h : Grown ts address b b') : Grown ts address b.settleList b'.settleList := by
  cases h with
  | @intro source blocks blocks' inlines loose starts starts' h =>
    rcases blocks with _ | ⟨⟨⟨kind, literal, children, inlines'⟩, start, implicit⟩, fs⟩
    · exact absurd rfl h.ne_nil.1
    · obtain ⟨cs, gs, rfl⟩ := h.head
      cases kind with
      | list style tight =>
        exact .intro (h.replace (g := ⟨⟨.list style _, literal, children, inlines'⟩, start, implicit⟩) rfl fun _ => rfl)
      | _ => exact .intro h

/-! ## Events -/

theorem segment (h : Grown ts address b b') (t : Text) (span : Span) : b'.segment t span = b.segment t span := by
  cases h
  rfl

theorem start (h : Grown ts address b b') (hcounted : b.Counted) (span : Span) (tag : Tag) :
    Grown ts address (b.start span tag) (b'.start span tag) := by
  have hclosed := h.closeImplicit hcounted
  cases tag with
  | paragraph =>
    simp only [Builder.start]
    rw [hclosed.head (p := fun f => decide (f.block.kind = .listItem)) fun _ _ => rfl]
    split
    · exact hclosed.markLoose.openBlock _ _
    · exact hclosed.openBlock _ _
  | heading level =>
    have hsource : b'.closeImplicit.sourceText span = b.closeImplicit.sourceText span := by
      rw [sourceText, hclosed.source, sourceText]
    simp only [Builder.start, hsource]
    exact hclosed.openBlock _ _
  | codeBlock info => cases info <;> exact hclosed.openBlock _ _
  | blockQuote | htmlBlock | item => exact hclosed.openBlock _ _
  | list first =>
    have hsource : b'.closeImplicit.sourceText span = b.closeImplicit.sourceText span := by
      rw [sourceText, hclosed.source, sourceText]
    simp only [Builder.start, hsource, hclosed.loose]
    exact (hclosed.withLoose _).openBlock _ _
  | emphasis | strong | link _ _ | image _ _ | strikethrough | superscript | subscript => exact h.openInline _
  | _ => exact h

theorem stop (h : Grown ts address b b') (hcounted : b.Counted) (tag : Tag) :
    Grown ts address (b.stop tag) (b'.stop tag) := by
  cases tag with
  | paragraph | heading _ | blockQuote | codeBlock _ | htmlBlock => exact h.closeBlock hcounted
  | item => exact (h.closeImplicit hcounted).closeBlock hcounted.closeImplicit
  | list first =>
    exact (h.closeImplicit hcounted).settleList.closeBlock hcounted.closeImplicit.settleList
  | emphasis | strong | link _ _ | image _ _ | strikethrough | superscript | subscript => exact h.closeInline
  | _ => exact h

/-- **No event looks at what is attached already**, so the builders stay different in that one place alone. -/
theorem event (h : Grown ts address b b') (hcounted : b.Counted) (span : Span) (e : Event) :
    Grown ts address (b.event span e) (b'.event span e) := by
  cases e with
  | start tag => exact h.start hcounted span tag
  | stop tag => exact h.stop hcounted tag
  | text t | inlineMath t | displayMath t =>
    simp only [Builder.event, text, h.segment]
    exact h.getD_pushLiteral? (h.onInlines _) _
  | html t =>
    simp only [Builder.event, h.segment]
    exact h.getD_pushLiteral? (h.onInlines _) _
  | code t | inlineHtml t =>
    simp only [Builder.event, h.segment]
    exact h.onInlines _
  | softBreak => exact h.onInlines (· ++ [.softBreak])
  | hardBreak => exact h.onInlines (· ++ [.lineBreak])
  | rule => exact (h.closeImplicit hcounted).attach _ _
  | footnoteReference _ | taskListMarker _ => exact h

theorem events (h : Grown ts address b b') (hcounted : b.Counted) (es : List (Event × Span)) :
    Grown ts address (b.events es) (b'.events es) := by
  induction es generalizing b b' with
  | nil => exact h
  | cons e es ih => exact ih (h.event hcounted e.2 e.1) (hcounted.event e.2 e.1)

/-! ## The finished document -/

theorem length (h : Grown ts address b b') : b'.blocks.length = b.blocks.length := by
  cases h with
  | intro h => exact h.length

theorem repeat_closeInline (h : Grown ts address b b') (n : Nat) :
    Grown ts address (n.repeat Builder.closeInline b) (n.repeat Builder.closeInline b') := by
  induction n with
  | zero => exact h
  | succ n ih => exact ih.closeInline

theorem repeat_closeBlock (h : Grown ts address b b') (hcounted : b.Counted) (n : Nat) :
    Grown ts address (n.repeat Builder.closeBlock b) (n.repeat Builder.closeBlock b') := by
  induction n with
  | zero => exact h
  | succ n ih => exact ih.closeBlock (iterate (P := Counted) (fun _ => Counted.closeBlock) hcounted n)

theorem closeAll (h : Grown ts address b b') (hcounted : b.Counted) : Grown ts address b.closeAll b'.closeAll := by
  have hinlines := h.repeat_closeInline b.inlines.length
  have hcounted' := iterate (P := Counted) (fun _ => Counted.closeInline) hcounted b.inlines.length
  simp only [Builder.closeAll, h.inlines, hinlines.length]
  exact hinlines.repeat_closeBlock hcounted' _

/-- **Documents finished from such builders differ in that one place**, whatever the definitions are. -/
theorem finish (h : Grown ts address b b') (hcounted : b.Counted) (ds : List (Nat × Text)) :
    Gained ts address (b.finish ds) (b'.finish ds) := by
  have hclosed := h.closeAll hcounted
  have hlength := b.length_closeAll
  unfold Builder.finish
  generalize b.closeAll = c, b'.closeAll = c' at hclosed hlength
  cases hclosed with
  | @intro _ blocks _ _ _ _ _ hclosed =>
    cases hclosed with
    | @document f _ bs bs' hk hf h =>
      have hzip : ∀ cs : List (Block × Nat), (cs.map Prod.fst).zip (cs.map Prod.snd) = cs := fun cs => by
        simp [List.zip_map']
      by_cases hds : ds.isEmpty = true
      · simp only [hds, ite_true]
        exact ⟨_, rfl, hf ▸ h.gains⟩
      · simp only [hds]
        refine ⟨_, rfl, ?_⟩
        simp only [List.head?_cons, Option.map_some, Option.getD_some, hf, hzip]
        exact h.placeDefinitions ds
    | inner => simp at hlength
    | above f h =>
      have hfs := h.ne_nil.1
      simp_all

end Grown

end Builder

end CommonMark
