import CommonMark.Proofs.Html.Spelling
import CommonMark.Proofs.Html.Transcript

/-!
# What a document shows

The characters and tags of a document by recursion on its tree, without line ends, buffers and trimming
(`blockAtoms`). What a tree without markup of its own writes spells just these (`writes_block`), so the shape
of the output can be read off the tree.
-/

namespace CommonMark

/-! ## Trees without markup of their own -/

namespace Inline

mutual

/-- Whether the character references of a label, which are written as they are, have none of some characters in them. -/
def isFreeOf (cs : List Char) : Inline → Bool
  | entity l => l.text.isFreeOf cs
  | link _ label | image _ label => areFreeOf cs label
  | strong is | emphasis is => areFreeOf cs is
  | text _ | lineBreak | softBreak | code _ | rawHtml _ => true

def areFreeOf (cs : List Char) : List Inline → Bool
  | [] => true
  | i :: is => isFreeOf cs i && areFreeOf cs is

end

mutual

/-- Whether an inline has no HTML and no character reference as written in the source. The label of an image
becomes an attribute: HTML is allowed in it, and so are references that have none of some characters in them. -/
def isTidy (cs : List Char) : Inline → Bool
  | rawHtml _ | entity _ => false
  | image _ label => areFreeOf cs label
  | link _ label => areTidy cs label
  | strong is | emphasis is => areTidy cs is
  | text _ | lineBreak | softBreak | code _ => true

def areTidy (cs : List Char) : List Inline → Bool
  | [] => true
  | i :: is => isTidy cs i && areTidy cs is

end

end Inline

namespace Block

mutual

/-- Whether a tree has no HTML block and its inlines are tidy. -/
def isTidy (cs : List Char) : Block → Bool
  | ⟨kind, _, children, inlines⟩ =>
    decide (kind ≠ .htmlBlock) && areTidy cs children && Inline.areTidy cs inlines

def areTidy (cs : List Char) : List Block → Bool
  | [] => true
  | b :: bs => isTidy cs b && areTidy cs bs

end

end Block

namespace Html

/-- A tight list in a loose one, text that ends in white space, and HTML in a label. -/
def nestedSample : Block :=
  let text (s : String) : Inline := .text (.plain s.toList)
  let image : Inline := .image ⟨"u\"v".toList, some "t".toList⟩
    [.rawHtml (.plain "\"><hr".toList), .entity (.plain "&amp;".toList)]
  let item (children : List Block) : Block := { kind := .listItem, children }
  let paragraph (inlines : List Inline) : Block := { kind := .paragraph, inlines }
  let inner : Block :=
    { kind := .list (.bullet '-') true
      children := [item [paragraph [.strong [.code (.plain "&".toList)], .lineBreak, text " \n"]]] }
  .document [{ kind := .list (.ordered 3 .paren) false, children := [item [paragraph [text "a < b ", image], inner]] }]

/-- An image whose label has a reference that is no reference. In the attribute it stands as it is, so its quote ends
the value and what follows it is read as markup. -/
def unquotedSample : Block :=
  { kind := .paragraph, inlines := [.image ⟨[], none⟩ [.entity (.plain "\"><p>x".toList)]] }

theorem render_unquotedSample : ∃ w : Writer Buffer, render .html5 false unquotedSample ⟨{}, true⟩ = (w, .ok ()) ∧
    w.sink.text = "<p><img src=\"\" alt=\"\"><p>x\" /></p>\n".toList := by
  refine ⟨_, render_of_no_limit .html5 false unquotedSample [] true, ?_⟩
  rw [Buffer.text, List.append_nil, List.reverse_reverse]
  decide +kernel

/-! ## Units of a tree -/

def literalAtoms (l : Literal) : List Atom := l.text.map .char

/-- Units between a tag and the one that closes it. -/
def element (name : Text) (attributes : List (Text × Text)) (as : List Atom) : List Atom :=
  .mark (.opening name attributes) :: as ++ [.mark (.closing name)]

def titleAttributes (probe : Probe) (target : Target) : List (Text × Text) :=
  match target.title with
  | none | some [] => []
  | some (c :: t) => [("title".toList, escapeText true probe (c :: t))]

/-- The tag of an image with the value of its `alt` attribute. -/
def imageMark (probe : Probe) (target : Target) (alt : Text) : Mark :=
  .void "img".toList
    (("src".toList, escapeText true probe target.url) :: ("alt".toList, alt) :: titleAttributes probe target)

mutual

def inlineAtoms (probe : Probe) : Inline → List Atom
  | .text l => literalAtoms l
  | .lineBreak => [.mark (.void "br".toList [])]
  | .softBreak | .rawHtml _ | .entity _ => []
  | .code l => element "code".toList [] (literalAtoms l)
  | .link target label =>
    element "a".toList (("href".toList, escapeText true probe target.url) :: titleAttributes probe target)
      (inlinesAtoms probe label)
  | .image target label =>
    [.mark (.void "img".toList (("src".toList, escapeText true probe target.url) ::
      ("alt".toList, altTexts probe label) :: titleAttributes probe target))]
  | .strong cs => element "strong".toList [] (inlinesAtoms probe cs)
  | .emphasis cs => element "em".toList [] (inlinesAtoms probe cs)

def inlinesAtoms (probe : Probe) : List Inline → List Atom
  | [] => []
  | i :: is => inlineAtoms probe i ++ inlinesAtoms probe is

end

/-- The element of a list around its items. -/
def listElement (style : ListStyle) (as : List Atom) : List Atom :=
  match style with
  | .bullet _ => element "ul".toList [] as
  | .ordered start _ =>
    element "ol".toList (if start = 1 then [] else [("start".toList, (toString start).toList)]) as

/-- The attribute that names the language of a code block. -/
def languageAttributes (probe : Probe) (info : Text) : List (Text × Text) :=
  match info.firstWord? with
  | none => []
  | some language => [("class".toList, "language-".toList ++ escapeText true probe language)]

def codeElement (attributes : List (Text × Text)) (l : Option Literal) : List Atom :=
  element "pre".toList [] (element "code".toList attributes (l.elim [] literalAtoms))

mutual

/-- The units of a block. -/
def blockAtoms (probe : Probe) (tight : Bool) : Block → List Atom
  | ⟨kind, literal, children, inlines⟩ =>
    match kind with
    | .document => blocksAtoms probe false children
    | .paragraph =>
      if tight then inlinesAtoms probe inlines else element "p".toList [] (inlinesAtoms probe inlines)
    | .blockQuote => element "blockquote".toList [] (blocksAtoms probe false children)
    | .list style tightItems => listElement style (blocksAtoms probe tightItems children)
    | .listItem => element "li".toList [] (blocksAtoms probe tight children)
    | .atxHeader level | .setextHeader level =>
      element ('h' :: (toString level).toList) [] (inlinesAtoms probe inlines)
    | .indentedCode => codeElement [] literal
    | .fencedCode info => codeElement (languageAttributes probe info) literal
    | .horizontalRuler => [.mark (.void "hr".toList [])]
    | .htmlBlock | .referenceDefinition _ => []

def blocksAtoms (probe : Probe) (tight : Bool) : List Block → List Atom
  | [] => []
  | b :: bs => blockAtoms probe tight b ++ blocksAtoms probe tight bs

end

/-! ## Steps that spell units -/

/-- Whether steps spell some units wherever the sink stands. -/
def Writes (ss : List Step) (as : List Atom) : Prop := ∀ flag, Spells (transcript flag ss) as

namespace Writes

theorem nil : Writes [] [] := fun _ => .nil

theorem append {s t : List Step} {as bs : List Atom} (hs : Writes s as) (ht : Writes t bs) :
    Writes (s ++ t) (as ++ bs) := by
  intro flag
  rw [transcript_append]
  exact (hs flag).append (ht _)

theorem newline : Writes [.newline] [] := fun _ => .blank (by decide)

theorem freshLine : Writes [.freshLine] []
  | true => .nil
  | false => .blank (by decide)

/-- Tags in any number of steps. -/
theorem marks {ss : List Step} (ms : List Mark) (h : ss.all Step.isText = true)
    (hm : ss.flatMap (Step.output true) = ms.flatMap Mark.write) : Writes ss (ms.map .mark) := by
  intro flag
  rw [transcript_of_isText h, hm]
  exact .marks ms

theorem mark {ss : List Step} {m : Mark} (h : ss.all Step.isText = true)
    (hm : ss.flatMap (Step.output true) = m.write) : Writes ss [.mark m] :=
  marks [m] h (by simp [hm])

/-- A tag in one step. -/
theorem tag {s : Step} {m : Mark} (h : s = .text m.write) : Writes [s] [.mark m] :=
  mark (by simp [h, Step.isText]) (by simp [h, Step.output])

theorem text (probe : Probe) (l : Literal) : Writes (textSteps probe l) (literalAtoms l) := by
  intro flag
  have ht : transcript flag (textSteps probe l) = l.text.flatMap escapeChar := by
    rw [textSteps, transcript_map_text, ← escapeLiteral_never probe]
    rfl
  rw [ht]
  exact .chars _

theorem element {ss body ss' : List Step} {name : Text} {attributes : List (Text × Text)} {as : List Atom}
    (h : Writes ss [.mark (.opening name attributes)]) (hb : Writes body as)
    (h' : Writes ss' [.mark (.closing name)]) : Writes (ss ++ body ++ ss') (element name attributes as) :=
  (h.append hb).append h'

theorem tagged {s s' : Step} {body : List Step} {name : Text} {as : List Atom}
    (h : s = .text (Mark.opening name []).write) (hb : Writes body as)
    (h' : s' = .text (Mark.closing name).write) : Writes (s :: body ++ [s']) (Html.element name [] as) :=
  element (tag h) hb (tag h')

/-- A tag at the start of a line. -/
theorem opening {s : Step} {m : Mark} (h : s = .text m.write) : Writes [.freshLine, s] [.mark m] :=
  freshLine.append (tag h)

/-- A tag at the end of a line. -/
theorem closing {s : Step} {m : Mark} (h : s = .text m.write) : Writes [s, .newline] [.mark m] :=
  (tag h).append newline

/-- A tag on a line of its own. -/
theorem line {s : Step} {m : Mark} (h : s = .text m.write) : Writes [.freshLine, s, .newline] [.mark m] :=
  (opening h).append newline

end Writes

section

variable (probe : Probe) (target : Target)

theorem all_isText_valueSteps (t : Text) : (valueSteps probe t).all Step.isText = true := by
  simp [valueSteps, Step.isText]

theorem flatMap_output_valueSteps (t : Text) :
    (valueSteps probe t).flatMap (Step.output true) = escapeText true probe t := by
  rw [valueSteps, List.flatMap_map]
  exact List.flatMap_id'

theorem all_isText_titleSteps : (titleSteps probe target).all Step.isText = true := by
  unfold titleSteps
  split <;> simp [all_isText_valueSteps, markup, Step.isText]

theorem flatMap_output_titleSteps :
    (titleSteps probe target).flatMap (Step.output true) =
      Mark.writeAttributes (titleAttributes probe target) := by
  unfold titleSteps titleAttributes
  split <;> simp_all [flatMap_output_valueSteps, markup, Step.output, Mark.writeAttributes]

theorem writes_linkOpening :
    Writes (markup "<a href=\"" :: valueSteps probe target.url ++ [markup "\""] ++ titleSteps probe target ++
        [markup ">"])
      [.mark (.opening "a".toList
        (("href".toList, escapeText true probe target.url) :: titleAttributes probe target))] := by
  refine .mark ?_ ?_
  · simp [all_isText_valueSteps, all_isText_titleSteps, markup, Step.isText]
  · simp [flatMap_output_valueSteps, flatMap_output_titleSteps, markup, Step.output, Mark.write, Mark.body,
      Mark.writeAttributes]

theorem all_isText_image (label : List Inline) :
    (inlineSteps probe (.image target label)).all Step.isText = true := by
  simp [inlineSteps, all_isText_valueSteps, all_isText_titleSteps, markup, Step.isText]

theorem flatMap_output_image (label : List Inline) :
    (inlineSteps probe (.image target label)).flatMap (Step.output true) =
      (imageMark probe target (altTexts probe label)).write := by
  simp [inlineSteps, imageMark, flatMap_output_valueSteps, flatMap_output_titleSteps, markup, Step.output, Mark.write,
    Mark.body, Mark.writeAttributes]

theorem writes_image (label : List Inline) :
    Writes (inlineSteps probe (.image target label)) (inlineAtoms probe (.image target label)) := by
  rw [inlineAtoms]
  exact .mark (all_isText_image probe target label) (flatMap_output_image probe target label)

end

theorem writes_languageOpening (probe : Probe) (info : Text) :
    Writes ([.freshLine, markup "<pre><code"] ++
        (match info.firstWord? with
          | none => []
          | some language => markup " class=\"language-" :: valueSteps probe language ++ [markup "\""]) ++
        [markup ">"])
      [.mark (.opening "pre".toList []), .mark (.opening "code".toList (languageAttributes probe info))] := by
  refine Writes.freshLine.append (t := markup "<pre><code" :: _ ++ [markup ">"])
    (.marks [.opening "pre".toList [], .opening "code".toList (languageAttributes probe info)] ?_ ?_)
  · split <;> simp [all_isText_valueSteps, markup, Step.isText]
  · unfold languageAttributes
    split <;> simp [flatMap_output_valueSteps, markup, Step.output, Mark.write, Mark.body, Mark.writeAttributes]

mutual

/-- What an inline writes spells its units. -/
theorem writes_inline (cs : List Char) (probe : Probe) : ∀ i : Inline, i.isTidy cs = true →
    Writes (inlineSteps probe i) (inlineAtoms probe i)
  | .text l, _ => .text probe l
  | .lineBreak, _ => .closing rfl
  | .softBreak, _ => .newline
  | .code l, _ => by
    rw [inlineSteps, inlineAtoms]
    exact .tagged rfl (.text probe l) rfl
  | .rawHtml _, h => nomatch h
  | .entity _, h => nomatch h
  | .link target label, h =>
    .element (writes_linkOpening probe target) (writes_inlines cs probe label h) (.mark rfl rfl)
  | .image target label, _ => writes_image probe target label
  | .strong is, h => by
    rw [inlineSteps, inlineAtoms]
    exact .tagged rfl (writes_inlines cs probe is h) rfl
  | .emphasis is, h => by
    rw [inlineSteps, inlineAtoms]
    exact .tagged rfl (writes_inlines cs probe is h) rfl

theorem writes_inlines (cs : List Char) (probe : Probe) : ∀ is : List Inline, Inline.areTidy cs is = true →
    Writes (inlinesSteps probe is) (inlinesAtoms probe is)
  | [], _ => .nil
  | i :: is, h => by
    simp only [Inline.areTidy, Bool.and_eq_true] at h
    exact (writes_inline cs probe i h.1).append (writes_inlines cs probe is h.2)

end

theorem writes_header (level : Nat) {body : List Step} {as : List Atom} (h : Writes body as) :
    Writes ([.freshLine, headerTag "<h" level] ++ body ++ [headerTag "</h" level, .newline])
      (element ('h' :: (toString level).toList) [] as) :=
  .element (.opening (by simp [headerTag, Mark.write, Mark.body, Mark.writeAttributes])) h
    (.closing (by simp [headerTag, Mark.write, Mark.body]))

theorem writes_list (style : ListStyle) {body : List Step} {as : List Atom} (h : Writes body as) :
    Writes ([.freshLine, listOpening style, .newline] ++ body ++ [.freshLine, listClosing style, .newline])
      (listElement style as) := by
  cases style with
  | bullet marker => exact .element (.line rfl) h (.line rfl)
  | ordered start delimiter =>
    by_cases hs : start = 1
    · subst hs
      exact .element (.line rfl) h (.line rfl)
    · refine .element (.line ?_) h (.line rfl)
      simp [listOpening, hs, Mark.write, Mark.body, Mark.writeAttributes]

/-- Trimming the body of an item and putting a line end back leaves its units as they are. -/
theorem writes_item {ss : List Step} {as : List Atom} (h : Writes ss as) :
    Writes (itemSteps (transcript false ss)) (element "li".toList [] as) := by
  have hkept : Writes [.text (transcript false ss).trimEnd] as := by
    intro flag
    simpa [transcript, Step.output] using (h false).trimEnd
  have hend : ∀ (p : Prop) [Decidable p], Writes (if p then [.newline] else []) [] := by
    intro p _
    split
    · exact .newline
    · exact .nil
  have hbody := hkept.append (hend ((transcript false ss).trimEnd ≠ [] ∧
    '\n' ∈ (transcript false ss).drop (transcript false ss).trimEnd.length))
  rw [List.append_nil] at hbody
  have hopen : Writes [.freshLine, markup "<li>"] [.mark (.opening "li".toList [])] := .opening rfl
  exact hopen.element hbody (.closing rfl)

theorem writes_code (probe : Probe) (l : Option Literal) {ss : List Step} {attributes : List (Text × Text)}
    (h : Writes ss [.mark (.opening "pre".toList []), .mark (.opening "code".toList attributes)]) :
    Writes (ss ++ codeBody probe l) (codeElement attributes l) := by
  have hbody : Writes (l.elim [] (textSteps probe)) (l.elim [] literalAtoms) := by
    cases l with
    | none => exact .nil
    | some l => exact .text probe l
  have hend : Writes [markup "</code></pre>"]
      [.mark (.closing "code".toList), .mark (.closing "pre".toList)] :=
    .marks [.closing "code".toList, .closing "pre".toList] rfl rfl
  simpa [codeBody, codeElement, element] using (h.append hbody).append (hend.append .newline)

mutual

/-- **What a block writes spells its units**, wherever the sink stands. -/
theorem writes_block (cs : List Char) (probe : Probe) : ∀ (tight : Bool) (b : Block), b.isTidy cs = true →
    Writes (blockSteps probe tight b) (blockAtoms probe tight b)
  | tight, ⟨kind, literal, children, inlines⟩, h => by
    simp only [Block.isTidy, Bool.and_eq_true, decide_eq_true_eq] at h
    obtain ⟨⟨hk, hc⟩, hi⟩ := h
    have hblocks := fun t => writes_blocks cs probe t children hc
    have hinlines := writes_inlines cs probe inlines hi
    cases kind with
    | document => exact hblocks false
    | paragraph =>
      cases tight with
      | true => exact hinlines
      | false => exact .element (.opening rfl) hinlines (.closing rfl)
    | blockQuote => exact .element (.line rfl) (hblocks false) (.line rfl)
    | list style t => exact writes_list style (hblocks t)
    | listItem => exact writes_item (hblocks tight)
    | atxHeader level => exact writes_header level hinlines
    | setextHeader level => exact writes_header level hinlines
    | indentedCode =>
      have hopen : Writes [markup "<pre><code>"]
          [.mark (.opening "pre".toList []), .mark (.opening "code".toList [])] :=
        .marks [.opening "pre".toList [], .opening "code".toList []] rfl rfl
      exact writes_code probe literal (Writes.freshLine.append hopen)
    | fencedCode info => exact writes_code probe literal (writes_languageOpening probe info)
    | htmlBlock => exact absurd rfl hk
    | horizontalRuler => exact .line rfl
    | referenceDefinition label => exact .nil

theorem writes_blocks (cs : List Char) (probe : Probe) : ∀ (tight : Bool) (bs : List Block),
    Block.areTidy cs bs = true → Writes (blocksSteps probe tight bs) (blocksAtoms probe tight bs)
  | _, [], _ => .nil
  | tight, b :: bs, h => by
    simp only [Block.areTidy, Bool.and_eq_true] at h
    exact (writes_block cs probe tight b h.1).append (writes_blocks cs probe tight bs h.2)

end

end Html

end CommonMark
