import CommonMark.Html.Render
import CommonMark.Proofs.Html.Escaping
import CommonMark.Proofs.Reference

/-!
# Where the probe matters

The probe is at hand wherever something is escaped, but it is asked only about the values of attributes: URLs, titles
and the languages of code blocks (`Block.values`), each as a buffer of its own, at its ampersands, with all that remains.
Two probes that agree there on what is a reference render a tree alike into every sink, whatever they answer elsewhere
(`render_of_agreeOn`). So it makes a difference whether references are kept only where such a value has one.
-/

namespace CommonMark

/-! ## The values of a tree -/

/-- The byte offsets at which a character stands in a text. -/
def Text.offsetsOf (c : Char) : Text → List Nat
  | [] => []
  | d :: t => (if d = c then [0] else []) ++ (offsetsOf c t).map (d.utf8Size + ·)

example : Text.offsetsOf '&' "é&&".toList = [2, 3] := by decide

/-- Whether two probes agree at each ampersand of a text that is a buffer of its own: for both a reference starts there,
or for none of them. -/
def Probe.AgreeOn (probe probe' : Probe) (t : Text) : Prop :=
  ∀ p ∈ t.offsetsOf '&', (0 < probe t p (t.bytes - p) ↔ 0 < probe' t p (t.bytes - p))

instance (probe probe' : Probe) (t : Text) : Decidable (probe.AgreeOn probe' t) := by
  unfold Probe.AgreeOn
  infer_instance

/-- The URL, and the title if there is one. -/
def Target.values (target : Target) : List Text := target.url :: target.title.toList

namespace Inline

mutual

/-- The URLs and titles of all links and images of an inline. -/
def values : Inline → List Text
  | text _ | lineBreak | softBreak | code _ | rawHtml _ | entity _ => []
  | link target label | image target label => target.values ++ valuesAll label
  | strong cs | emphasis cs => valuesAll cs

def valuesAll : List Inline → List Text
  | [] => []
  | i :: is => values i ++ valuesAll is

end

end Inline

/-- The first word of an info string. -/
def BlockKind.values : BlockKind → List Text
  | fencedCode info => info.firstWord?.toList
  | _ => []

namespace Block

mutual

/-- The URLs and titles of all links and images of a tree, and the first words of its info strings. -/
def values : Block → List Text
  | ⟨kind, _, children, inlines⟩ => kind.values ++ valuesAll children ++ Inline.valuesAll inlines

def valuesAll : List Block → List Text
  | [] => []
  | b :: bs => values b ++ valuesAll bs

end

end Block

theorem Text.mem_offsetsOf (c : Char) (u v : Text) : u.bytes ∈ Text.offsetsOf c (u ++ c :: v) := by
  induction u with
  | nil => simp [offsetsOf]
  | cons d u ih =>
    rw [List.cons_append, offsetsOf, bytes_cons]
    exact List.mem_append_right _ (List.mem_map_of_mem ih)

/-- The probe that keeps references and the one that keeps none agree on a text without a reference. -/
theorem Probe.agreeOn_never {t : Text}
    (h : ∀ before s after b, CharacterReference.Spells b s → t ≠ before ++ s ++ after) :
    Probe.html5.AgreeOn .never t := by
  intro p _
  have hzero : Probe.html5 t p (t.bytes - p) = 0 := by
    unfold Probe.html5
    split
    · rename_i w hslice
      cases hread : CharacterReference.read? w with
      | none => rfl
      | some b =>
        obtain ⟨before, after, ht, -, -⟩ := Text.slice?_eq_some_iff.1 hslice
        obtain ⟨s, rest, rfl, hs⟩ := CharacterReference.spells_of_read? hread
        exact absurd (by simpa using ht) (h before s (rest ++ after) b hs)
    · rfl
  simp [hzero, Probe.never]

namespace Html

/-! ## Two probes -/

section

variable {probe probe' : Probe}

/-- A value is written alike by probes that agree on it. -/
theorem valueSteps_of_agreeOn {t : Text} (h : probe.AgreeOn probe' t) : valueSteps probe t = valueSteps probe' t := by
  have hkeeps : ∀ u v, t = u ++ '&' :: v →
      keepsAt true probe (.whole t) (0 + u.bytes) = keepsAt true probe' (.whole t) (0 + u.bytes) := by
    rintro u v rfl
    have hagree := h _ (Text.mem_offsetsOf '&' u v)
    simp only [keepsAt, Segment.whole, Segment.stop, Nat.zero_add, Bool.true_and, decide_eq_decide]
    exact hagree
  have hpieces : pieces (keepsAt true probe (.whole t)) 0 t = pieces (keepsAt true probe' (.whole t)) 0 t :=
    pieces_congr hkeeps
  simp only [valueSteps, literalPieces, Literal.chunks, List.flatMap_singleton, Segment.text_whole]
  exact congrArg (List.map Step.text) hpieces

theorem titleSteps_of_agreeOn {target : Target} (h : ∀ t ∈ target.title, probe.AgreeOn probe' t) :
    titleSteps probe target = titleSteps probe' target := by
  unfold titleSteps
  split
  · rfl
  · rfl
  · rename_i c t htitle
    rw [valueSteps_of_agreeOn (h _ htitle)]

/-- No probe is asked about text. -/
theorem literalPieces_congr (probe probe' : Probe) (l : Literal) :
    literalPieces false probe l = literalPieces false probe' l := by
  simp only [literalPieces, keepsAt_never]

theorem textSteps_congr (probe probe' : Probe) (l : Literal) : textSteps probe l = textSteps probe' l := by
  rw [textSteps, literalPieces_congr probe probe', textSteps]

mutual

/-- No probe is asked about the label of an image. -/
theorem altText_congr (probe probe' : Probe) : ∀ i : Inline, altText probe i = altText probe' i
  | .text l | .code l | .rawHtml l => congrArg List.flatten (literalPieces_congr probe probe' l)
  | .entity _ | .lineBreak | .softBreak => rfl
  | .link _ label | .image _ label => altTexts_congr probe probe' label
  | .strong cs | .emphasis cs => altTexts_congr probe probe' cs

theorem altTexts_congr (probe probe' : Probe) : ∀ is : List Inline, altTexts probe is = altTexts probe' is
  | [] => rfl
  | i :: is => by rw [altTexts, altText_congr probe probe' i, altTexts_congr probe probe' is, altTexts]

end

mutual

theorem inlineSteps_of_agreeOn : ∀ i : Inline, (∀ t ∈ i.values, probe.AgreeOn probe' t) →
    inlineSteps probe i = inlineSteps probe' i
  | .text l, _ => textSteps_congr probe probe' l
  | .lineBreak, _ | .softBreak, _ | .rawHtml _, _ | .entity _, _ => rfl
  | .code l, _ => by rw [inlineSteps, textSteps_congr probe probe', inlineSteps]
  | .link target label, h => by
    obtain ⟨htarget, hlabel⟩ := List.forall_mem_append.1 h
    obtain ⟨hurl, htitle⟩ := List.forall_mem_cons.1 htarget
    rw [inlineSteps, valueSteps_of_agreeOn hurl, titleSteps_of_agreeOn (by simpa using htitle),
      inlinesSteps_of_agreeOn label hlabel, inlineSteps]
  | .image target label, h => by
    obtain ⟨htarget, -⟩ := List.forall_mem_append.1 h
    obtain ⟨hurl, htitle⟩ := List.forall_mem_cons.1 htarget
    rw [inlineSteps, valueSteps_of_agreeOn hurl, titleSteps_of_agreeOn (by simpa using htitle),
      altTexts_congr probe probe', inlineSteps]
  | .strong cs, h | .emphasis cs, h => by rw [inlineSteps, inlinesSteps_of_agreeOn cs h, inlineSteps]

theorem inlinesSteps_of_agreeOn : ∀ is : List Inline, (∀ t ∈ Inline.valuesAll is, probe.AgreeOn probe' t) →
    inlinesSteps probe is = inlinesSteps probe' is
  | [], _ => rfl
  | i :: is, h => by
    obtain ⟨hi, his⟩ := List.forall_mem_append.1 h
    rw [inlinesSteps, inlineSteps_of_agreeOn i hi, inlinesSteps_of_agreeOn is his, inlinesSteps]

end

theorem codeBody_congr (probe probe' : Probe) (l : Option Literal) : codeBody probe l = codeBody probe' l := by
  cases l with
  | none => rfl
  | some l => rw [codeBody, Option.elim_some, textSteps_congr probe probe', codeBody, Option.elim_some]

mutual

/-- **The steps of a block are those of another probe** that agrees on its values. The cases are what the kinds use. -/
theorem blockSteps_of_agreeOn : ∀ (tight : Bool) (b : Block), (∀ t ∈ b.values, probe.AgreeOn probe' t) →
    blockSteps probe tight b = blockSteps probe' tight b
  | tight, ⟨kind, literal, children, inlines⟩, h => by
    rw [Block.values] at h
    obtain ⟨hbefore, hown⟩ := List.forall_mem_append.1 h
    obtain ⟨hkind, hchildren⟩ := List.forall_mem_append.1 hbefore
    have hblocks : ∀ t, blocksSteps probe t children = blocksSteps probe' t children :=
      fun t => blocksSteps_of_agreeOn t children hchildren
    have hinlines := inlinesSteps_of_agreeOn inlines hown
    cases kind with
    | document | blockQuote | list | listItem => simp only [blockSteps, hblocks]
    | paragraph | atxHeader | setextHeader => simp only [blockSteps, hinlines]
    | indentedCode => simp only [blockSteps, codeBody_congr probe probe']
    | fencedCode info =>
      simp only [blockSteps, codeBody_congr probe probe']
      cases hword : info.firstWord? with
      | none => rfl
      | some language =>
        have hlanguage : probe.AgreeOn probe' language := hkind language (by simp [BlockKind.values, hword])
        simp only [valueSteps_of_agreeOn hlanguage]
    | htmlBlock | horizontalRuler | referenceDefinition => rfl

theorem blocksSteps_of_agreeOn : ∀ (tight : Bool) (bs : List Block),
    (∀ t ∈ Block.valuesAll bs, probe.AgreeOn probe' t) → blocksSteps probe tight bs = blocksSteps probe' tight bs
  | _, [], _ => rfl
  | tight, b :: bs, h => by
    obtain ⟨hb, hbs⟩ := List.forall_mem_append.1 h
    rw [blocksSteps, blockSteps_of_agreeOn tight b hb, blocksSteps_of_agreeOn tight bs hbs, blocksSteps]

end

end

/-- **The probe matters only for URLs, titles and languages.** Rendering a tree into any writer, with any tightness, gives
the same with two probes that agree on all of them. And unless one of them contains a reference, it is the same whether
references are kept or not. -/
theorem render_of_agreeOn (root : Block) (tight : Bool) {σ : Type} [Sink σ] (w : Writer σ) :
    (∀ probe probe' : Probe, (∀ t ∈ root.values, probe.AgreeOn probe' t) →
      render probe tight root w = render probe' tight root w) ∧
    (render .html5 tight root w = render .never tight root w ∨
      ∃ t ∈ root.values, ∃ before s after b, CharacterReference.Spells b s ∧ t = before ++ s ++ after) := by
  have hagree : ∀ probe probe' : Probe, (∀ t ∈ root.values, probe.AgreeOn probe' t) →
      render probe tight root w = render probe' tight root w := by
    intro probe probe' h
    rw [render, blockSteps_of_agreeOn tight root h, render]
  refine ⟨hagree, ?_⟩
  by_cases hreference : ∃ t ∈ root.values, ∃ before s after b,
      CharacterReference.Spells b s ∧ t = before ++ s ++ after
  · exact .inr hreference
  · refine .inl (hagree _ _ fun t ht => Probe.agreeOn_never fun before s after b hs heq => ?_)
    exact hreference ⟨t, ht, before, s, after, b, hs, heq⟩

/-- References in a URL, a title and a language, and ampersands that start none in texts, code, the label of an image and
the rest of an info string. -/
def ampersandSample : Block :=
  let text (s : String) : Literal := .plain s.toList
  let code : Block := { kind := .fencedCode "c&#38; &c".toList, literal := some (text "&&") }
  let image : Inline := .image ⟨"/&#x41;".toList, some "&#9;".toList⟩ [.code (text "&x")]
  let paragraph : Block := { kind := .paragraph, inlines := [.link ⟨"?a&#38;b".toList, none⟩ [image, .text (text "R&D")]] }
  { kind := .list (.bullet '-') true, children := [{ kind := .listItem, children := [paragraph, code] }] }

theorem render_of_agreeOn_ampersandSample :
    (∀ t ∈ ampersandSample.values, Probe.html5.AgreeOn .every t) ∧
      render .html5 false ampersandSample (⟨{}, true⟩ : Writer Buffer) =
        render .every false ampersandSample ⟨{}, true⟩ := by
  have hagree : ∀ t ∈ ampersandSample.values, Probe.html5.AgreeOn .every t := by decide
  exact ⟨hagree, (render_of_agreeOn ampersandSample false _).1 .html5 .every hagree⟩

end Html

end CommonMark
