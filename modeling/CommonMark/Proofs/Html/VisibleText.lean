import CommonMark.Proofs.Html.WellFormed

/-!
# The text of rendered trees

Rendering loses, doubles and moves no text: what a reader of the output sees between the tags is the text
that the tree shows, up to white space (`visibleText_render`). The characters among the units of a tree are
its text (`characters_block`), and a text that spells valid units shows their characters
(`visibleText_of_spells`).
-/

namespace CommonMark

namespace Inline

mutual

/-- The text that an inline shows outside tags; an image shows none. -/
def shownText : Inline → Text
  | text l | code l => l.text
  | link _ label => shownTexts label
  | strong cs | emphasis cs => shownTexts cs
  | lineBreak | softBreak | rawHtml _ | entity _ | image .. => []

def shownTexts : List Inline → Text
  | [] => []
  | i :: is => shownText i ++ shownTexts is

end

end Inline

namespace Block

mutual

/-- The text that a block shows outside tags, in the order of the tree. -/
def shownText : Block → Text
  | ⟨kind, literal, children, inlines⟩ =>
    match kind with
    | .document | .blockQuote | .list .. | .listItem => shownTexts children
    | .paragraph | .atxHeader _ | .setextHeader _ => Inline.shownTexts inlines
    | .indentedCode | .fencedCode _ => literal.elim [] Literal.text
    | .htmlBlock | .horizontalRuler | .referenceDefinition _ => []

def shownTexts : List Block → Text
  | [] => []
  | b :: bs => shownText b ++ shownTexts bs

end

end Block

/-- A text without its white space. -/
def Text.withoutBlanks (t : Text) : Text := t.filter fun c => !isBlank c

namespace Html

/-- A text without its tags, each from a left bracket to the next right one; `inside` says whether the text
starts in a tag. -/
def outsideTags (inside : Bool) : Text → Text
  | [] => []
  | c :: t =>
    if inside then outsideTags (c ≠ '>') t
    else if c = '<' then outsideTags true t
    else c :: outsideTags false t

/-- What a reader sees of HTML, up to white space. -/
def visibleText (t : Text) : Text := (decode (outsideTags false t)).withoutBlanks

/-! ## Leaving out tags -/

theorem outsideTags_inside {s : Text} (h : '>' ∉ s) (t : Text) :
    outsideTags true (s ++ '>' :: t) = outsideTags false t := by
  induction s with
  | nil => rfl
  | cons c s ih =>
    have hc : c ≠ '>' := (List.ne_of_not_mem_cons h).symm
    simp only [List.cons_append, outsideTags, ite_true, ne_eq, hc, not_false_eq_true, decide_true]
    exact ih (List.not_mem_of_not_mem_cons h)

theorem outsideTags_outside {s : Text} (h : '<' ∉ s) (t : Text) :
    outsideTags false (s ++ t) = s ++ outsideTags false t := by
  induction s with
  | nil => rfl
  | cons c s ih =>
    have hc : c ≠ '<' := (List.ne_of_not_mem_cons h).symm
    simp only [List.cons_append, outsideTags, Bool.false_eq_true, ite_false, hc, ih (List.not_mem_of_not_mem_cons h)]

section

variable {cs : List Char}

theorem isFreeOf_of_isName (hcs : cs ⊆ ['<', '>']) {t : Text} (h : Mark.isName t = true) : t.isFreeOf cs = true := by
  refine Text.isFreeOf_of_subset hcs (Text.isFreeOf_iff.2 fun c hc hmem => ?_)
  simp only [Mark.isName, Bool.and_eq_true, List.all_eq_true] at h
  have hname := h.2 c hc
  simp only [List.mem_cons, List.not_mem_nil, or_false] at hmem
  rcases hmem with rfl | rfl <;> exact absurd hname (by decide)

/-- Around the names and values of attributes there is no bracket. -/
theorem isFreeOf_writeAttributes (hcs : cs ⊆ ['<', '>']) {as : List (Text × Text)}
    (h : as.all (Mark.isAttribute cs) = true) : (Mark.writeAttributes as).isFreeOf cs = true := by
  induction as with
  | nil => rfl
  | cons a as ih =>
    simp only [List.all_cons, Mark.isAttribute, Bool.and_eq_true] at h
    have hspace : Text.isFreeOf cs [' '] = true := Text.isFreeOf_of_subset hcs (by decide)
    have hopen : Text.isFreeOf cs ['=', '"'] = true := Text.isFreeOf_of_subset hcs (by decide)
    have hclose : Text.isFreeOf cs ['"'] = true := Text.isFreeOf_of_subset hcs (by decide)
    have hwrite : Mark.writeAttributes (a :: as) =
        [' '] ++ a.1 ++ ['=', '"'] ++ a.2 ++ ['"'] ++ Mark.writeAttributes as := by simp [Mark.writeAttributes]
    simp only [hwrite, Text.isFreeOf_append, hspace, isFreeOf_of_isName hcs h.1.1, hopen, h.1.2, hclose, ih h.2,
      Bool.and_true]

/-- Between its brackets a valid tag has those only that the values of its attributes have. -/
theorem isFreeOf_body (hcs : cs ⊆ ['<', '>']) {m : Mark} (h : m.isValid cs = true) : m.body.isFreeOf cs = true := by
  cases m with
  | opening name as =>
    simp only [Mark.isValid, Bool.and_eq_true] at h
    rw [Mark.body, Text.isFreeOf_append, isFreeOf_of_isName hcs h.1, isFreeOf_writeAttributes hcs h.2]
    rfl
  | closing name =>
    have hslash : Text.isFreeOf cs ['/'] = true := Text.isFreeOf_of_subset hcs (by decide)
    have hbody : (Mark.closing name).body = ['/'] ++ name := rfl
    rw [hbody, Text.isFreeOf_append, hslash, isFreeOf_of_isName hcs h]
    rfl
  | void name as =>
    simp only [Mark.isValid, Bool.and_eq_true, decide_eq_true_eq] at h
    have hnames : ∀ n ∈ Mark.voidNames, Mark.isName n = true := by decide
    have hend : Text.isFreeOf cs [' ', '/'] = true := Text.isFreeOf_of_subset hcs (by decide)
    rw [Mark.body, Text.isFreeOf_append, Text.isFreeOf_append, isFreeOf_of_isName hcs (hnames name h.1),
      isFreeOf_writeAttributes hcs h.2, hend]
    rfl

end

theorem outsideTags_mark {m : Mark} (h : m.isValid ['>'] = true) (t : Text) :
    outsideTags false (m.write ++ t) = outsideTags false t := by
  rw [Mark.write, List.append_assoc, List.cons_append, List.singleton_append]
  exact outsideTags_inside (Text.not_mem_of_isFreeOf (by decide) (isFreeOf_body (by decide) h)) t

/-! ## Characters of units -/

def Atom.char? : Atom → Option Char
  | char c => some c
  | mark _ => none

/-- The text of units. -/
def characters (as : List Atom) : Text := as.filterMap Atom.char?

theorem characters_append (as bs : List Atom) : characters (as ++ bs) = characters as ++ characters bs :=
  List.filterMap_append

theorem characters_chars (t : Text) : characters (t.map .char) = t := by
  rw [characters, List.filterMap_map]
  exact List.filterMap_some

theorem characters_visible (as : List Atom) :
    characters (as.filter Atom.isVisible) = (characters as).withoutBlanks := by
  induction as with
  | nil => rfl
  | cons a as ih =>
    cases a with
    | mark m => exact ih
    | char c =>
      simp only [characters, Text.withoutBlanks, List.filter_cons, Atom.isVisible, List.filterMap_cons,
        Atom.char?] at ih ⊢
      by_cases hc : isBlank c = true
      · simp [hc, ih]
      · simp [hc, ih, Atom.char?]

theorem outsideTags_atoms {as : List Atom} (h : ∀ m, .mark m ∈ as → m.isValid ['>'] = true) :
    outsideTags false (as.flatMap Atom.write) = (characters as).flatMap escapeChar := by
  induction as with
  | nil => rfl
  | cons a as ih =>
    have ih := ih fun m hm => h m (List.mem_cons_of_mem _ hm)
    rw [List.flatMap_cons]
    cases a with
    | char c => exact (outsideTags_outside (not_mem_escapeChar c) _).trans (congrArg (escapeChar c ++ ·) ih)
    | mark m => exact (outsideTags_mark (h m (by simp)) _).trans ih

/-- A text that spells valid units shows their characters. -/
theorem visibleText_of_spells {t : Text} {as : List Atom} (h : ∀ m, .mark m ∈ as → m.isValid ['>'] = true)
    (hs : Spells t as) : visibleText t = (characters as).withoutBlanks := by
  obtain ⟨bs, rfl, hb⟩ := hs
  have hbs : ∀ m, .mark m ∈ bs → m.isValid ['>'] = true := fun m hm => h m (mark_mem_of_filter_eq hb hm)
  rw [visibleText, outsideTags_atoms hbs, decode_escape, ← characters_visible, hb, characters_visible]

/-! ## Characters of a tree -/

theorem characters_element (name : Text) (attributes : List (Text × Text)) (as : List Atom) :
    characters (element name attributes as) = characters as := by
  rw [element, List.cons_append, characters, List.filterMap_cons]
  show characters (as ++ [.mark (.closing name)]) = characters as
  rw [characters_append]
  exact List.append_nil _

theorem characters_listElement (style : ListStyle) (as : List Atom) :
    characters (listElement style as) = characters as := by
  cases style with
  | bullet marker => exact characters_element _ _ as
  | ordered start delimiter => exact characters_element _ _ as

theorem characters_codeElement (attributes : List (Text × Text)) (l : Option Literal) :
    characters (codeElement attributes l) = l.elim [] Literal.text := by
  rw [codeElement, characters_element, characters_element]
  cases l with
  | none => rfl
  | some l => exact characters_chars l.text

mutual

theorem characters_inline (probe : Probe) : ∀ i : Inline, characters (inlineAtoms probe i) = i.shownText
  | .text l => characters_chars l.text
  | .lineBreak | .softBreak | .rawHtml _ | .entity _ | .image _ _ => rfl
  | .code l => (characters_element _ _ _).trans (characters_chars l.text)
  | .link _ label => (characters_element _ _ _).trans (characters_inlines probe label)
  | .strong cs | .emphasis cs => (characters_element _ _ _).trans (characters_inlines probe cs)

theorem characters_inlines (probe : Probe) : ∀ is : List Inline,
    characters (inlinesAtoms probe is) = Inline.shownTexts is
  | [] => rfl
  | i :: is => by
    rw [inlinesAtoms, characters_append, characters_inline probe i, characters_inlines probe is]
    rfl

end

mutual

/-- The characters among the units of a block are the text that it shows. -/
theorem characters_block (probe : Probe) : ∀ (tight : Bool) (b : Block),
    characters (blockAtoms probe tight b) = b.shownText
  | tight, ⟨kind, literal, children, inlines⟩ => by
    have hblocks := fun t => characters_blocks probe t children
    have hinlines := characters_inlines probe inlines
    cases kind with
    | document => exact hblocks false
    | paragraph =>
      cases tight with
      | true => exact hinlines
      | false => exact (characters_element _ _ _).trans hinlines
    | blockQuote => exact (characters_element _ _ _).trans (hblocks false)
    | list style t => exact (characters_listElement style _).trans (hblocks t)
    | listItem => exact (characters_element _ _ _).trans (hblocks tight)
    | atxHeader level => exact (characters_element _ _ _).trans hinlines
    | setextHeader level => exact (characters_element _ _ _).trans hinlines
    | indentedCode => exact characters_codeElement [] literal
    | fencedCode info => exact characters_codeElement (languageAttributes probe info) literal
    | htmlBlock => rfl
    | horizontalRuler => rfl
    | referenceDefinition label => rfl

theorem characters_blocks (probe : Probe) : ∀ (tight : Bool) (bs : List Block),
    characters (blocksAtoms probe tight bs) = Block.shownTexts bs
  | _, [] => rfl
  | tight, b :: bs => by
    rw [blocksAtoms, characters_append, characters_block probe tight b, characters_blocks probe tight bs]
    rfl

end

/-- **Rendering keeps the text**: rendering a tidy tree, with no right bracket in the references of its labels, into a
buffer without limit succeeds, and what a reader sees of the buffer is what the tree shows, in order and up to white
space. -/
theorem visibleText_render (probe : Probe) (tight atLineStart : Bool) (root : Block)
    (h : root.isTidy ['>'] = true) :
    ∃ w : Writer Buffer, render probe tight root ⟨{}, atLineStart⟩ = (w, .ok ()) ∧
      visibleText w.sink.text = root.shownText.withoutBlanks := by
  refine ⟨_, render_of_no_limit probe tight root [] atLineStart, ?_⟩
  rw [Buffer.text, List.append_nil, List.reverse_reverse]
  have hspells := writes_block ['>'] probe tight root h atLineStart
  have hvalid := (sound_block probe (by decide) tight root h).valid
  rw [visibleText_of_spells hvalid hspells, characters_block]

theorem visibleText_render_nestedSample :
    nestedSample.isTidy ['>'] = true ∧ ∃ w : Writer Buffer,
      render .html5 false nestedSample ⟨{}, false⟩ = (w, .ok ()) ∧
        visibleText w.sink.text = "a<b&".toList := by
  obtain ⟨w, hw, ht⟩ := visibleText_render .html5 false false nestedSample (by decide)
  exact ⟨by decide, w, hw, ht.trans (by decide)⟩

/-- The bracket has to be barred: what stands in the label of an image may come out of its tag. -/
theorem not_visibleText_render_unquotedSample :
    unquotedSample.isTidy [] = true ∧ ∃ w : Writer Buffer,
      render .html5 false unquotedSample ⟨{}, true⟩ = (w, .ok ()) ∧
        visibleText w.sink.text = "x\"/>".toList ∧ unquotedSample.shownText.withoutBlanks = [] := by
  obtain ⟨w, hw, ht⟩ := render_unquotedSample
  refine ⟨by decide, w, hw, ?_, by decide⟩
  rw [ht]
  decide

end Html

end CommonMark
