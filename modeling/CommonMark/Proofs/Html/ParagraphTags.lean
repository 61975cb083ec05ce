import CommonMark.Proofs.Html.VisibleText

/-!
# Which paragraphs have tags

A renderer carries one flag down the tree, and each kind of container passes it on or sets it anew. What comes of it can
be said of each paragraph on its own: the nearest block above it that is not a list item decides (`Block.isTagged`), and
where there is none, the flag of the whole rendering. The output has just as many paragraph tags as there are paragraphs
that this gives tags to (`occurrences_paragraphTags`). Tags in the output are counted by where they start
(`Text.occurrences`), so a tag inside a text, an attribute or another tag would count; the units that an output spells
have none (`occurrences_of_spells`).
-/

namespace CommonMark

/-- How many times a text stands in another, counted by where it starts. -/
def Text.occurrences (part : Text) : Text → Nat
  | [] => if part.isEmpty then 1 else 0
  | c :: t => (if part.isPrefixOf (c :: t) then 1 else 0) + occurrences part t

example : Text.occurrences "aa".toList "aaab".toList = 2 := by decide

namespace Block

mutual

/-- The blocks that are reached from one through the children of containers, it first, each with the kinds of the blocks
above it, the nearest first. -/
def reached (above : List BlockKind) : Block → List (List BlockKind × Block)
  | ⟨kind, literal, children, inlines⟩ =>
    (above, ⟨kind, literal, children, inlines⟩) ::
      if kind.isContainer then reachedAll (kind :: above) children else []

def reachedAll (above : List BlockKind) : List Block → List (List BlockKind × Block)
  | [] => []
  | b :: bs => reached above b ++ reachedAll above bs

end

/-- Whether a paragraph below blocks of some kinds, the nearest first, has tags: the nearest that is not a list item
decides, and where there is none, whether the whole is tight. -/
def isTagged (tight : Bool) (above : List BlockKind) : Bool :=
  match above.find? (· ≠ .listItem) with
  | none => !tight
  | some .document | some .blockQuote => true
  | some (.list _ tightItems) => !tightItems
  | some _ => false

/-- Whether a block that was reached is a paragraph with tags. -/
def isTaggedParagraph (tight : Bool) (r : List BlockKind × Block) : Bool :=
  decide (r.2.kind = .paragraph) && isTagged tight r.1

/-- The number of paragraphs of a tree that have tags. -/
def taggedParagraphs (tight : Bool) (root : Block) : Nat := (root.reached []).countP (isTaggedParagraph tight)

end Block

namespace Html

/-- An item with a paragraph, a quote, a tight list that holds a quote and a loose list, and a paragraph in the place of
an item. -/
def tightnessSample : Block :=
  let paragraph (s : String) : Block := { kind := .paragraph, inlines := [.text (.plain s.toList)] }
  let item (children : List Block) : Block := { kind := .listItem, children }
  let quote (children : List Block) : Block := { kind := .blockQuote, children }
  let list (tight : Bool) (children : List Block) : Block := { kind := .list (.bullet '-') tight, children }
  item [paragraph "<p>", quote [item [paragraph "b"]],
    list true [item [quote [paragraph "c"], list false [item [item [paragraph "d"]]], paragraph "e"], paragraph "f"]]

example : (tightnessSample.taggedParagraphs false, tightnessSample.taggedParagraphs true) = (4, 3) := by decide

/-! ## Tags in a text -/

/-- A tag does not start in a text without brackets. -/
theorem occurrences_append {p s : Text} (h : '<' ∉ s) (t : Text) :
    Text.occurrences ('<' :: p) (s ++ t) = Text.occurrences ('<' :: p) t := by
  induction s with
  | nil => rfl
  | cons c s ih =>
    have hstarts : ('<' :: p).isPrefixOf (c :: (s ++ t)) = false := by
      simp [List.isPrefixOf, List.ne_of_not_mem_cons h]
    rw [List.cons_append, Text.occurrences, hstarts, ih (List.not_mem_of_not_mem_cons h)]
    exact Nat.zero_add _

/-- What has no right bracket is read to its end. -/
theorem takeWhile_append_of_not_mem {s : Text} (h : '>' ∉ s) (t : Text) :
    (s ++ t).takeWhile (· ≠ '>') = s ++ t.takeWhile (· ≠ '>') :=
  List.takeWhile_append_of_pos fun _ hc => decide_eq_true fun heq => h (heq ▸ hc)

theorem takeWhile_append_bracket {s : Text} (h : '>' ∉ s) (t : Text) :
    (s ++ '>' :: t).takeWhile (· ≠ '>') = s := by
  rw [takeWhile_append_of_not_mem h]
  simp

/-- A tag as a text is read: to the first right bracket, which may stand in a value. -/
def Mark.head (m : Mark) : Text := m.body.takeWhile (· ≠ '>')

theorem Mark.exists_write_append (m : Mark) (t : Text) : ∃ rest, m.write ++ t = '<' :: m.head ++ '>' :: rest := by
  have hbody : ∀ s : Text, ∃ rest, s ++ '>' :: t = s.takeWhile (· ≠ '>') ++ '>' :: rest := by
    intro s
    induction s with
    | nil => exact ⟨t, rfl⟩
    | cons c s ih =>
      obtain ⟨rest, hrest⟩ := ih
      by_cases hc : c = '>'
      · exact ⟨s ++ '>' :: t, by simp [hc]⟩
      · exact ⟨rest, by simp only [List.cons_append, hrest, List.takeWhile_cons, ne_eq, hc, not_false_eq_true,
          decide_true, ite_true]⟩
  obtain ⟨rest, hrest⟩ := hbody m.body
  exact ⟨rest, by simp [Mark.write, Mark.head, hrest]⟩

/-- At a tag stands no other. -/
theorem isPrefixOf_write_iff {m : Mark} (hm : m.isValid ['>'] = true) (m' : Mark) (t : Text) :
    m.write.isPrefixOf (m'.write ++ t) = true ↔ m'.head = m.body := by
  have hbody : '>' ∉ m.body := Text.not_mem_of_isFreeOf (by decide) (isFreeOf_body (by decide) hm)
  obtain ⟨rest', hwrite⟩ := m'.exists_write_append t
  rw [List.isPrefixOf_iff_prefix, hwrite]
  constructor
  · rintro ⟨rest, hrest⟩
    have hbodies : m.body ++ '>' :: rest = m'.head ++ '>' :: rest' := by simpa [Mark.write] using hrest
    have htake := congrArg (List.takeWhile (· ≠ '>')) hbodies
    have hall : m'.head.all (· ≠ '>') = true := List.all_takeWhile
    have hhead : '>' ∉ m'.head := fun hmem => absurd (List.all_eq_true.1 hall _ hmem) (by decide)
    rw [takeWhile_append_bracket hbody, takeWhile_append_bracket hhead] at htake
    exact htake.symm
  · intro hhead
    exact ⟨rest', by rw [hhead]; simp [Mark.write]⟩

/-- A tag with no left bracket in it counts once where it is read as the tag that is counted. -/
theorem occurrences_write {m m' : Mark} (hm : m.isValid ['>'] = true) (hm' : m'.isValid ['<'] = true) (t : Text) :
    Text.occurrences m.write (m'.write ++ t) = (if m'.head = m.body then 1 else 0) + Text.occurrences m.write t := by
  have hfree : '<' ∉ m'.body := Text.not_mem_of_isFreeOf (by decide) (isFreeOf_body (by decide) hm')
  have hbody : '<' ∉ m'.body ++ ['>'] := by simpa using hfree
  have hstarts := isPrefixOf_write_iff hm m' t
  have hrest : Text.occurrences m.write ((m'.body ++ ['>']) ++ t) = Text.occurrences m.write t :=
    occurrences_append hbody t
  have hwrite : m'.write ++ t = '<' :: ((m'.body ++ ['>']) ++ t) := by simp [Mark.write]
  rw [hwrite] at hstarts ⊢
  rw [Text.occurrences, hrest]
  simp only [hstarts]

/-- Whether a unit is a certain tag. -/
def Atom.isMark (m : Mark) : Atom → Bool
  | char _ => false
  | mark m' => decide (m' = m)

section

variable {m : Mark} (hm : m.isValid ['>'] = true)
  (hhead : ∀ m' : Mark, m'.isValid ['<'] = true → (m'.head = m.body ↔ m' = m))
include hm hhead

/-- Of units with valid tags, those are a certain tag that are this tag in the text. -/
theorem occurrences_atoms {as : List Atom} (h : ∀ m', .mark m' ∈ as → m'.isValid ['<'] = true) :
    Text.occurrences m.write (as.flatMap Atom.write) = as.countP (Atom.isMark m) := by
  induction as with
  | nil => rfl
  | cons a as ih =>
    have ih := ih fun m' hm' => h m' (List.mem_cons_of_mem _ hm')
    rw [List.flatMap_cons, List.countP_cons, ← ih]
    cases a with
    | char c => exact occurrences_append (not_mem_escapeChar c) _
    | mark m' =>
      have hvalid := h m' List.mem_cons_self
      have hwrite := occurrences_write hm hvalid (as.flatMap Atom.write)
      simp only [hhead m' hvalid] at hwrite
      simpa [Atom.write, Atom.token, Token.write, Atom.isMark, Nat.add_comm] using hwrite

theorem occurrences_of_spells {t : Text} {as : List Atom} (h : ∀ m', .mark m' ∈ as → m'.isValid ['<'] = true)
    (hs : Spells t as) : Text.occurrences m.write t = as.countP (Atom.isMark m) := by
  obtain ⟨bs, rfl, hb⟩ := hs
  -- tags are visible, so both lists of units have the same ones
  have hvisible : ∀ cs : List Atom, cs.countP (Atom.isMark m) = (cs.filter Atom.isVisible).countP (Atom.isMark m) := by
    intro cs
    rw [List.countP_filter]
    refine List.countP_congr fun a _ => ?_
    cases a <;> simp [Atom.isMark, Atom.isVisible]
  have hbs : ∀ m', .mark m' ∈ bs → m'.isValid ['<'] = true := fun m' hm' => h m' (mark_mem_of_filter_eq hb hm')
  rw [occurrences_atoms hm hhead hbs, hvisible, hb, ← hvisible]

end

/-! ## Paragraph tags among units -/

/-- The name of a tag is in its head, whatever follows. -/
theorem takeWhile_name_append {name : Text} (h : Mark.isName name = true) (t : Text) :
    (name ++ t).takeWhile (· ≠ '>') = name ++ t.takeWhile (· ≠ '>') := by
  have hfree : name.isFreeOf ['>'] = true := isFreeOf_of_isName (by decide) h
  exact takeWhile_append_of_not_mem (Text.not_mem_of_isFreeOf (by decide) hfree) t

theorem head_closing {name : Text} (h : Mark.isName name = true) : (Mark.closing name).head = '/' :: name := by
  have hname := takeWhile_name_append h []
  rw [List.append_nil, List.takeWhile_nil, List.append_nil] at hname
  exact congrArg ('/' :: ·) hname

theorem head_void_ne {name : Text} (h : name ∈ Mark.voidNames) (as : List (Text × Text)) :
    (Mark.void name as).head ≠ "p".toList ∧ (Mark.void name as).head ≠ "/p".toList := by
  simp only [Mark.voidNames, List.mem_cons, List.not_mem_nil, or_false] at h
  rcases h with rfl | rfl | rfl <;> simp [Mark.head, Mark.body]

/-- Only the opening tag of a paragraph is read like it. -/
theorem head_eq_opening_iff {m : Mark} (h : m.isValid ['<'] = true) :
    m.head = (Mark.opening "p".toList []).body ↔ m = .opening "p".toList [] := by
  constructor
  · intro hhead
    cases m with
    | opening name as =>
      simp only [Mark.isValid, Bool.and_eq_true] at h
      rw [Mark.head, Mark.body, takeWhile_name_append h.1] at hhead
      cases as with
      | nil =>
        have hname : name = "p".toList := by simpa [Mark.body, Mark.writeAttributes] using hhead
        rw [hname]
      | cons a as =>
        have hspace : ' ' ∈ name ++ (Mark.writeAttributes (a :: as)).takeWhile (· ≠ '>') := by
          simp [Mark.writeAttributes]
        rw [hhead] at hspace
        exact absurd hspace (by decide)
    | closing name =>
      rw [head_closing h] at hhead
      exact absurd (List.cons.inj hhead).1 (by decide)
    | void name as =>
      simp only [Mark.isValid, Bool.and_eq_true, decide_eq_true_eq] at h
      exact absurd hhead (head_void_ne h.1 as).1
  · rintro rfl
    rfl

/-- Only the closing tag of a paragraph is read like it. -/
theorem head_eq_closing_iff {m : Mark} (h : m.isValid ['<'] = true) :
    m.head = (Mark.closing "p".toList).body ↔ m = .closing "p".toList := by
  constructor
  · intro hhead
    cases m with
    | opening name as =>
      simp only [Mark.isValid, Bool.and_eq_true] at h
      rw [Mark.head, Mark.body, takeWhile_name_append h.1] at hhead
      -- a name does not start with a slash
      simp only [Mark.isName, Bool.and_eq_true] at h
      cases name with
      | nil => cases h.1.1
      | cons c name =>
        have hc : c = '/' := (List.cons.inj hhead).1
        rw [hc] at h
        exact absurd (List.all_eq_true.1 h.1.2 '/' List.mem_cons_self) (by decide)
    | closing name =>
      rw [head_closing h] at hhead
      have hname : name = "p".toList := (List.cons.inj hhead).2
      rw [hname]
    | void name as =>
      simp only [Mark.isValid, Bool.and_eq_true, decide_eq_true_eq] at h
      exact absurd hhead (head_void_ne h.1 as).2
  · rintro rfl
    rfl

/-- Whether units have a number of paragraph tags, opening and closing. -/
structure Paragraphs (as : List Atom) (n : Nat) : Prop where
  opening : as.countP (Atom.isMark (.opening "p".toList [])) = n
  closing : as.countP (Atom.isMark (.closing "p".toList)) = n

namespace Paragraphs

theorem nil : Paragraphs [] 0 := ⟨rfl, rfl⟩

theorem append {as bs : List Atom} {n k : Nat} (ha : Paragraphs as n) (hb : Paragraphs bs k) :
    Paragraphs (as ++ bs) (n + k) :=
  ⟨by rw [List.countP_append, ha.opening, hb.opening], by rw [List.countP_append, ha.closing, hb.closing]⟩

theorem chars (t : Text) : Paragraphs (t.map .char) 0 := by
  constructor <;> simp [Atom.isMark]

theorem void (name : Text) (attributes : List (Text × Text)) : Paragraphs [.mark (.void name attributes)] 0 := by
  constructor <;> simp [Atom.isMark]

theorem element {name : Text} (hn : name ≠ ['p']) (attributes : List (Text × Text)) {as : List Atom} {n : Nat}
    (h : Paragraphs as n) : Paragraphs (Html.element name attributes as) n := by
  constructor
  · simpa [Html.element, Atom.isMark, hn] using h.opening
  · simpa [Html.element, Atom.isMark, hn] using h.closing

theorem paragraph {as : List Atom} {n : Nat} (h : Paragraphs as n) :
    Paragraphs (Html.element "p".toList [] as) (n + 1) := by
  constructor
  · simpa [Html.element, Atom.isMark] using h.opening
  · simpa [Html.element, Atom.isMark] using h.closing

end Paragraphs

mutual

/-- Running text has no paragraphs in it. -/
theorem paragraphs_inline (probe : Probe) : ∀ i : Inline, Paragraphs (inlineAtoms probe i) 0
  | .text l => .chars l.text
  | .lineBreak => .void _ _
  | .softBreak | .rawHtml _ | .entity _ => .nil
  | .code l => .element (by decide) _ (.chars l.text)
  | .link _ label => .element (by decide) _ (paragraphs_inlines probe label)
  | .image _ _ => .void _ _
  | .strong cs => .element (by decide) _ (paragraphs_inlines probe cs)
  | .emphasis cs => .element (by decide) _ (paragraphs_inlines probe cs)

theorem paragraphs_inlines (probe : Probe) : ∀ is : List Inline, Paragraphs (inlinesAtoms probe is) 0
  | [] => .nil
  | i :: is => (paragraphs_inline probe i).append (paragraphs_inlines probe is)

end

theorem paragraphs_code (attributes : List (Text × Text)) (l : Option Literal) :
    Paragraphs (codeElement attributes l) 0 := by
  refine .element (by decide) _ (.element (by decide) _ ?_)
  cases l with
  | none => exact .nil
  | some l => exact .chars l.text

theorem paragraphs_list (style : ListStyle) {as : List Atom} {n : Nat} (h : Paragraphs as n) :
    Paragraphs (listElement style as) n := by
  cases style with
  | bullet marker => exact h.element (by decide) _
  | ordered start delimiter => exact h.element (by decide) _

mutual

/-- **The units of a block have the tags of its paragraphs.** The flag that is passed down says whether paragraphs here
have tags. -/
theorem paragraphs_block (probe : Probe) (root : Bool) : ∀ (above : List BlockKind) (b : Block),
    Paragraphs (blockAtoms probe (!Block.isTagged root above) b)
      ((b.reached above).countP (Block.isTaggedParagraph root))
  | above, ⟨kind, literal, children, inlines⟩ => by
    have hblocks := paragraphs_blocks probe root (kind :: above) children
    have hinlines := paragraphs_inlines probe inlines
    rw [Block.reached, List.countP_cons]
    cases kind with
    | document => exact hblocks
    | paragraph =>
      cases htagged : Block.isTagged root above with
      | true =>
        simp only [Block.isTaggedParagraph, htagged]
        exact hinlines.paragraph
      | false =>
        simp only [Block.isTaggedParagraph, htagged]
        exact hinlines
    | blockQuote => exact hblocks.element (by decide) _
    | list style t =>
      have hflag : (!Block.isTagged root (.list style t :: above)) = t := Bool.not_not t
      rw [hflag] at hblocks
      exact paragraphs_list style hblocks
    | listItem => exact hblocks.element (by decide) _
    | atxHeader level | setextHeader level => exact hinlines.element (by simp) _
    | indentedCode => exact paragraphs_code [] literal
    | fencedCode info => exact paragraphs_code (languageAttributes probe info) literal
    | horizontalRuler => exact .void _ _
    | htmlBlock | referenceDefinition label => exact .nil

theorem paragraphs_blocks (probe : Probe) (root : Bool) : ∀ (above : List BlockKind) (bs : List Block),
    Paragraphs (blocksAtoms probe (!Block.isTagged root above) bs)
      ((Block.reachedAll above bs).countP (Block.isTaggedParagraph root))
  | _, [] => .nil
  | above, b :: bs => by
    rw [Block.reachedAll, List.countP_append]
    exact (paragraphs_block probe root above b).append (paragraphs_blocks probe root above bs)

end

/-- **Just the paragraphs that the blocks above them give tags to have them**: a tidy tree, with no left bracket in the
references of its labels, is rendered into an empty buffer without an error, and the output has as many opening tags of
paragraphs, and as many closing ones, as the tree has such paragraphs. -/
theorem occurrences_paragraphTags (probe : Probe) (tight atLineStart : Bool) (root : Block)
    (h : root.isTidy ['<'] = true) :
    ∃ w : Writer Buffer, render probe tight root ⟨{}, atLineStart⟩ = (w, .ok ()) ∧
      Text.occurrences "<p>".toList w.sink.text = root.taggedParagraphs tight ∧
      Text.occurrences "</p>".toList w.sink.text = root.taggedParagraphs tight := by
  refine ⟨_, render_of_no_limit probe tight root [] atLineStart, ?_⟩
  rw [Buffer.text, List.append_nil, List.reverse_reverse]
  have hspells := writes_block ['<'] probe tight root h atLineStart
  have hvalid := (sound_block probe (by decide) tight root h).valid
  have hcount := paragraphs_block probe tight [] root
  have hflag : (!Block.isTagged tight []) = tight := Bool.not_not tight
  rw [hflag] at hcount
  constructor
  · exact (occurrences_of_spells (m := .opening "p".toList []) rfl (fun _ => head_eq_opening_iff) hvalid
      hspells).trans hcount.opening
  · exact (occurrences_of_spells (m := .closing "p".toList) rfl (fun _ => head_eq_closing_iff) hvalid
      hspells).trans hcount.closing

theorem occurrences_paragraphTags_tightnessSample :
    tightnessSample.isTidy ['<'] = true ∧ ∃ w : Writer Buffer,
      render .html5 true tightnessSample ⟨{}, true⟩ = (w, .ok ()) ∧
        Text.occurrences "<p>".toList w.sink.text = 3 ∧ Text.occurrences "</p>".toList w.sink.text = 3 := by
  obtain ⟨w, hw, hopening, hclosing⟩ := occurrences_paragraphTags .html5 true true tightnessSample (by decide)
  exact ⟨by decide, w, hw, hopening.trans (by decide), hclosing.trans (by decide)⟩

/-- The bracket has to be barred: a tag that comes out of the label of an image is one that no paragraph has. -/
theorem not_occurrences_paragraphTags_unquotedSample :
    unquotedSample.isTidy [] = true ∧ ∃ w : Writer Buffer,
      render .html5 false unquotedSample ⟨{}, true⟩ = (w, .ok ()) ∧
        Text.occurrences "<p>".toList w.sink.text = 2 ∧ unquotedSample.taggedParagraphs false = 1 := by
  obtain ⟨w, hw, ht⟩ := render_unquotedSample
  refine ⟨by decide, w, hw, ?_, by decide⟩
  rw [ht]
  decide

end Html

end CommonMark
