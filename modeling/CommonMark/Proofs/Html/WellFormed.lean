import CommonMark.Proofs.Html.Shown

/-!
# Rendered trees are well formed

The units of a tidy tree close every tag that they open, innermost first, and all their tags are valid
(`sound_block`), whatever is kept out of the references in labels. When nothing is in these that may not stand between
double quotes, a text that spells such units is well formed (`Sound.wellFormed`), and so is what rendering writes
(`render_wellFormed`).
-/

namespace CommonMark.Html

/-! ## Units that make a text well formed -/

/-- Units that leave the open tags as they are, with tags that are valid and have none of some characters in the values
of their attributes. -/
structure Sound (cs : List Char) (as : List Atom) : Prop where
  nests : ∀ (names : List Text) (rest : List Token), openAfter names (as.map Atom.token ++ rest) = openAfter names rest
  valid : ∀ m, .mark m ∈ as → m.isValid cs = true

namespace Sound

variable {cs : List Char}

theorem nil : Sound cs [] := ⟨fun _ _ => rfl, fun _ h => by simp at h⟩

theorem append {as bs : List Atom} (ha : Sound cs as) (hb : Sound cs bs) : Sound cs (as ++ bs) where
  nests names rest := by rw [List.map_append, List.append_assoc, ha.nests, hb.nests]
  valid m h := (List.mem_append.1 h).elim (ha.valid m) (hb.valid m)

theorem chars (t : Text) : Sound cs (t.map .char) where
  nests names rest := by
    induction t with
    | nil => rfl
    | cons c t ih => exact ih
  valid m h := by simp at h

theorem void {name : Text} {attributes : List (Text × Text)}
    (h : (Mark.void name attributes).isValid cs = true) : Sound cs [.mark (.void name attributes)] where
  nests _ _ := rfl
  valid m hm := by simp_all

theorem element {name : Text} {attributes : List (Text × Text)} {as : List Atom} (hn : Mark.isName name = true)
    (ha : attributes.all (Mark.isAttribute cs) = true) (h : Sound cs as) : Sound cs (element name attributes as) where
  nests names rest := by
    have hin := h.nests (name :: names) (.mark (.closing name) :: rest)
    simp only [Html.element, List.cons_append, List.map_cons, List.map_append, List.append_assoc, List.map_nil,
      List.nil_append, Atom.token, openAfter]
    rw [hin]
    simp [openAfter]
  valid m hm := by
    simp only [Html.element, List.cons_append, List.mem_cons, List.mem_append, Atom.mark.injEq, List.not_mem_nil,
      or_false] at hm
    rcases hm with rfl | hm | rfl
    · simp [Mark.isValid, hn, ha]
    · exact h.valid m hm
    · exact hn

/-- White space opens and closes nothing. -/
theorem openAfter_visible (names : List Text) (as : List Atom) :
    openAfter names ((as.filter Atom.isVisible).map Atom.token) = openAfter names (as.map Atom.token) := by
  induction as generalizing names with
  | nil => rfl
  | cons a as ih =>
    match a with
    | .char c =>
      rw [List.filter_cons]
      cases Atom.isVisible (.char c) <;> simpa [Atom.token, openAfter] using ih names
    | .mark (.opening name _) => exact ih (name :: names)
    | .mark (.closing name) =>
      simp only [List.filter_cons, Atom.isVisible, ite_true, List.map_cons, Atom.token, openAfter, ih]
    | .mark (.void ..) => exact ih names

theorem isValid_char (c : Char) : (Atom.char c).token.isValid = true := by
  have hall : ['<', '>'] ⊆ Mark.reserved := by decide
  exact Text.isFreeOf_of_subset hall (isQuotable_replacement false c)

/-- A text that spells sound units is well formed. -/
theorem wellFormed {t : Text} {as : List Atom} (h : Sound Mark.reserved as) (hs : Spells t as) : WellFormed t := by
  obtain ⟨bs, rfl, hb⟩ := hs
  refine ⟨bs.map Atom.token, List.flatMap_map .., ?_, ?_⟩
  · rw [List.all_map, List.all_eq_true]
    intro b hmem
    cases b with
    | char c => exact isValid_char c
    | mark m => exact h.valid m (mark_mem_of_filter_eq hb hmem)
  · have hn := h.nests [] []
    rw [List.append_nil] at hn
    rw [← openAfter_visible, hb, openAfter_visible, hn]
    rfl

end Sound

/-! ## Units of tidy trees -/

theorem isNameChar_of_isDigit {c : Char} (h : c.isDigit = true) : CharacterReference.isNameChar c = true := by
  simp only [Char.isDigit, Bool.and_eq_true, decide_eq_true_eq] at h
  simp only [CharacterReference.isNameChar, CharacterReference.isDecimal, Bool.or_eq_true, Bool.and_eq_true,
    decide_eq_true_eq]
  exact .inr h

theorem isDigit_of_mem_toString {n : Nat} {c : Char} (h : c ∈ (toString n).toList) : c.isDigit = true := by
  rw [Nat.toString_eq_ofList_toDigits, String.toList_ofList] at h
  exact Nat.isDigit_of_mem_toDigits (by decide) (by decide) h

theorem isName_header (level : Nat) : Mark.isName ('h' :: (toString level).toList) = true := by
  have h : (toString level).toList.all CharacterReference.isNameChar = true :=
    List.all_eq_true.2 fun c hc => isNameChar_of_isDigit (isDigit_of_mem_toString hc)
  rw [Mark.isName, List.all_cons, h]
  rfl

theorem isQuotable_toString (n : Nat) : Mark.isQuotable (toString n).toList = true := by
  refine List.all_eq_true.2 fun c hc => ?_
  have h := isDigit_of_mem_toString hc
  have hne : ∀ d : Char, d.isDigit = false → c ≠ d := by
    rintro d hd rfl
    exact Bool.false_ne_true (hd.symm.trans h)
  simp [Mark.reserved, hne '"' rfl, hne '<' rfl, hne '>' rfl]

section

variable {cs : List Char} (probe : Probe)

theorem isAttribute_of_isQuotable {name value : Text} (hcs : cs ⊆ Mark.reserved)
    (hn : Mark.isName name = true) (hv : Mark.isQuotable value = true) :
    Mark.isAttribute cs (name, value) = true := by
  rw [Mark.isAttribute, hn, Text.isFreeOf_of_subset hcs hv]
  rfl

theorem isAttribute_escapeText (hcs : cs ⊆ Mark.reserved) {name : Text} (h : Mark.isName name = true)
    (preserve : Bool) (t : Text) : Mark.isAttribute cs (name, escapeText preserve probe t) = true :=
  isAttribute_of_isQuotable hcs h (isQuotable_escapeText preserve probe t)

theorem all_isAttribute_titleAttributes (hcs : cs ⊆ Mark.reserved) (target : Target) :
    (titleAttributes probe target).all (Mark.isAttribute cs) = true := by
  unfold titleAttributes
  split
  · rfl
  · rfl
  · rw [List.all_cons, isAttribute_escapeText probe hcs (by decide)]; rfl

theorem all_isAttribute_languageAttributes (hcs : cs ⊆ Mark.reserved) (info : Text) :
    (languageAttributes probe info).all (Mark.isAttribute cs) = true := by
  unfold languageAttributes
  split
  · rfl
  · rename_i language _
    have hvalue : Mark.isQuotable ("language-".toList ++ escapeText true probe language) = true := by
      rw [isQuotable_append, isQuotable_escapeText]
      rfl
    rw [List.all_cons, isAttribute_of_isQuotable hcs (by decide) hvalue]
    rfl

mutual

/-- What is escaped in the label of an image, HTML in it too, has none of the characters. -/
theorem isFreeOf_altText (hcs : cs ⊆ Mark.reserved) : ∀ i : Inline, i.isFreeOf cs = true →
    (altText probe i).isFreeOf cs = true
  | .text l, _ | .code l, _ | .rawHtml l, _ =>
    Text.isFreeOf_of_subset hcs (isQuotable_escapeLiteral false probe l)
  | .entity _, h => h
  | .lineBreak, _ | .softBreak, _ =>
    have hspace : Mark.isQuotable [' '] = true := by decide
    Text.isFreeOf_of_subset hcs hspace
  | .link _ label, h | .image _ label, h => isFreeOf_altTexts hcs label h
  | .strong is, h | .emphasis is, h => isFreeOf_altTexts hcs is h

theorem isFreeOf_altTexts (hcs : cs ⊆ Mark.reserved) : ∀ is : List Inline, Inline.areFreeOf cs is = true →
    (altTexts probe is).isFreeOf cs = true
  | [], _ => rfl
  | i :: is, h => by
    simp only [Inline.areFreeOf, Bool.and_eq_true] at h
    rw [altTexts, Text.isFreeOf_append, isFreeOf_altText hcs i h.1, isFreeOf_altTexts hcs is h.2]
    rfl

end

mutual

theorem sound_inline (hcs : cs ⊆ Mark.reserved) : ∀ i : Inline, i.isTidy cs = true →
    Sound cs (inlineAtoms probe i)
  | .text l, _ => .chars l.text
  | .lineBreak, _ => .void rfl
  | .softBreak, _ => .nil
  | .code l, _ => .element (by decide) rfl (.chars l.text)
  | .rawHtml _, h => nomatch h
  | .entity _, h => nomatch h
  | .link target label, h => by
    refine .element (by decide) ?_ (sound_inlines hcs label h)
    rw [List.all_cons, isAttribute_escapeText probe hcs (by decide), all_isAttribute_titleAttributes probe hcs]
    rfl
  | .image target label, h => by
    have halt : Mark.isAttribute cs ("alt".toList, altTexts probe label) = true := by
      rw [Mark.isAttribute, isFreeOf_altTexts probe hcs label h]
      rfl
    refine .void ?_
    rw [Mark.isValid, List.all_cons, List.all_cons, isAttribute_escapeText probe hcs (by decide), halt,
      all_isAttribute_titleAttributes probe hcs]
    decide
  | .strong is, h => .element (by decide) rfl (sound_inlines hcs is h)
  | .emphasis is, h => .element (by decide) rfl (sound_inlines hcs is h)

theorem sound_inlines (hcs : cs ⊆ Mark.reserved) : ∀ is : List Inline, Inline.areTidy cs is = true →
    Sound cs (inlinesAtoms probe is)
  | [], _ => .nil
  | i :: is, h => by
    simp only [Inline.areTidy, Bool.and_eq_true] at h
    exact (sound_inline hcs i h.1).append (sound_inlines hcs is h.2)

end

theorem sound_listElement (hcs : cs ⊆ Mark.reserved) (style : ListStyle) {as : List Atom} (h : Sound cs as) :
    Sound cs (listElement style as) := by
  cases style with
  | bullet marker => exact .element (by decide) rfl h
  | ordered start delimiter =>
    refine .element (by decide) ?_ h
    split
    · rfl
    · rw [List.all_cons, isAttribute_of_isQuotable hcs (by decide) (isQuotable_toString start)]
      rfl

theorem sound_codeElement {attributes : List (Text × Text)} (h : attributes.all (Mark.isAttribute cs) = true)
    (l : Option Literal) : Sound cs (codeElement attributes l) := by
  refine .element (by decide) rfl (.element (by decide) h ?_)
  cases l with
  | none => exact .nil
  | some l => exact .chars l.text

mutual

/-- The units of a tidy block are sound. -/
theorem sound_block (hcs : cs ⊆ Mark.reserved) : ∀ (tight : Bool) (b : Block), b.isTidy cs = true →
    Sound cs (blockAtoms probe tight b)
  | tight, ⟨kind, literal, children, inlines⟩, h => by
    simp only [Block.isTidy, Bool.and_eq_true, decide_eq_true_eq] at h
    obtain ⟨⟨_, hc⟩, hi⟩ := h
    have hblocks := fun t => sound_blocks hcs t children hc
    have hinlines := sound_inlines probe hcs inlines hi
    cases kind with
    | document => exact hblocks false
    | paragraph =>
      cases tight with
      | true => exact hinlines
      | false => exact .element (by decide) rfl hinlines
    | blockQuote => exact .element (by decide) rfl (hblocks false)
    | list style t => exact sound_listElement hcs style (hblocks t)
    | listItem => exact .element (by decide) rfl (hblocks tight)
    | atxHeader level => exact .element (isName_header level) rfl hinlines
    | setextHeader level => exact .element (isName_header level) rfl hinlines
    | indentedCode => exact sound_codeElement rfl literal
    | fencedCode info => exact sound_codeElement (all_isAttribute_languageAttributes probe hcs info) literal
    | htmlBlock => exact .nil
    | horizontalRuler => exact .void rfl
    | referenceDefinition label => exact .nil

theorem sound_blocks (hcs : cs ⊆ Mark.reserved) : ∀ (tight : Bool) (bs : List Block), Block.areTidy cs bs = true →
    Sound cs (blocksAtoms probe tight bs)
  | _, [], _ => .nil
  | tight, b :: bs, h => by
    simp only [Block.areTidy, Bool.and_eq_true] at h
    exact (sound_block hcs tight b h.1).append (sound_blocks hcs tight bs h.2)

end

end

/-- **Rendered trees are well formed**: rendering a tidy tree into a buffer without limit succeeds and leaves
well-formed HTML in it. -/
theorem render_wellFormed (probe : Probe) (tight atLineStart : Bool) (root : Block)
    (h : root.isTidy Mark.reserved = true) :
    ∃ w : Writer Buffer, render probe tight root ⟨{}, atLineStart⟩ = (w, .ok ()) ∧ WellFormed w.sink.text := by
  refine ⟨_, render_of_no_limit probe tight root [] atLineStart, ?_⟩
  rw [Buffer.text, List.append_nil, List.reverse_reverse]
  have hsound : Sound Mark.reserved (blockAtoms probe tight root) := sound_block probe (List.Subset.refl _) tight root h
  exact hsound.wellFormed (writes_block Mark.reserved probe tight root h atLineStart)

theorem render_wellFormed_nestedSample :
    nestedSample.isTidy Mark.reserved = true ∧ ∃ w : Writer Buffer,
      render .html5 false nestedSample ⟨{}, false⟩ = (w, .ok ()) ∧ WellFormed w.sink.text :=
  ⟨by decide, render_wellFormed .html5 false false nestedSample (by decide)⟩

end CommonMark.Html
