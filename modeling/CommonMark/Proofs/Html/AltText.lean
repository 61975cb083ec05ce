import CommonMark.Proofs.Html.NormalForm
import CommonMark.Proofs.Html.Shown

/-!
# The label of an image

An image shows its label as the value of an attribute: the text of the label without its markup (`Inline.flatText`),
escaped. So an image is rendered like one whose label is just that text, wherever it stands in a tree, also in the label
of another (`blockSteps_fill`), and a reader of the attribute gets the text back. A place in a tree is a tree with a
slot for one inline (`Block.Slot`). Where an image is shown, what stands before and after its tag in the output does not
depend on its label (`frames_block`); both halves are put together in `render_image`.
-/

namespace CommonMark

namespace Inline

/-! ## Flat labels -/

mutual

/-- The text of an inline without its markup, with a space for each break. -/
def flatText : Inline → Text
  | text l | code l | rawHtml l => l.text
  | entity _ => []
  | lineBreak | softBreak => [' ']
  | link _ label | image _ label => flatTexts label
  | strong cs | emphasis cs => flatTexts cs

def flatTexts : List Inline → Text
  | [] => []
  | i :: is => flatText i ++ flatTexts is

end

mutual

/-- Whether an inline has no character reference as written in the source. -/
def isReferenceFree : Inline → Bool
  | entity _ => false
  | link _ label | image _ label => areReferenceFree label
  | strong cs | emphasis cs => areReferenceFree cs
  | text _ | code _ | rawHtml _ | lineBreak | softBreak => true

def areReferenceFree : List Inline → Bool
  | [] => true
  | i :: is => isReferenceFree i && areReferenceFree is

end

/-! ## Places in a tree -/

/-- Inlines with a place for one more among them, at any depth. -/
inductive Slot where
  | here (before after : List Inline)
  | link (before : List Inline) (target : Target) (slot : Slot) (after : List Inline)
  | image (before : List Inline) (target : Target) (slot : Slot) (after : List Inline)
  | strong (before : List Inline) (slot : Slot) (after : List Inline)
  | emphasis (before : List Inline) (slot : Slot) (after : List Inline)

namespace Slot

/-- The inlines with an inline in its place. -/
def fill (i : Inline) : Slot → List Inline
  | here before after => before ++ i :: after
  | link before target slot after => before ++ .link target (slot.fill i) :: after
  | image before target slot after => before ++ .image target (slot.fill i) :: after
  | strong before slot after => before ++ .strong (slot.fill i) :: after
  | emphasis before slot after => before ++ .emphasis (slot.fill i) :: after

/-- Whether an inline here is shown with its markup, as it is outside the labels of images. -/
def isShown : Slot → Bool
  | here .. => true
  | image .. => false
  | link _ _ slot _ | strong _ slot _ | emphasis _ slot _ => slot.isShown

end Slot

end Inline

namespace Block

/-- A tree with a place for one more inline. -/
inductive Slot where
  /-- Among the inlines of a block. -/
  | inlines (kind : BlockKind) (literal : Option Literal) (children : List Block) (slot : Inline.Slot)
  /-- In a child of a block. -/
  | child (kind : BlockKind) (literal : Option Literal) (before : List Block) (slot : Slot) (after : List Block)
    (own : List Inline)

namespace Slot

/-- The tree with an inline in its place. -/
def fill (i : Inline) : Slot → Block
  | inlines kind literal children slot => ⟨kind, literal, children, slot.fill i⟩
  | child kind literal before slot after own => ⟨kind, literal, before ++ slot.fill i :: after, own⟩

/-- Whether an inline here is shown: the blocks above it use their children, and the block that holds it its inlines. -/
def isShown : Slot → Bool
  | inlines kind _ _ slot => kind.holdsInlines && slot.isShown
  | child kind _ _ slot _ _ => kind.isContainer && slot.isShown

end Slot

end Block

namespace Html

section

variable (probe : Probe)

mutual

/-- The label of an image is its flat text, escaped as a whole. -/
theorem altText_eq : ∀ i : Inline, i.isReferenceFree = true → altText probe i = i.flatText.flatMap escapeChar
  | .text l, _ | .code l, _ | .rawHtml l, _ => escapeLiteral_never probe l
  | .entity _, h => nomatch h
  | .lineBreak, _ | .softBreak, _ => rfl
  | .link _ label, h | .image _ label, h => altTexts_eq label h
  | .strong cs, h | .emphasis cs, h => altTexts_eq cs h

theorem altTexts_eq : ∀ is : List Inline, Inline.areReferenceFree is = true →
    altTexts probe is = (Inline.flatTexts is).flatMap escapeChar
  | [], _ => rfl
  | i :: is, h => by
    rw [Inline.areReferenceFree, Bool.and_eq_true] at h
    rw [altTexts, altText_eq i h.1, altTexts_eq is h.2, Inline.flatTexts, List.flatMap_append]

end

/-- A label of one text is that text. -/
theorem altTexts_text (t : Text) : altTexts probe [.text (.plain t)] = t.flatMap escapeChar := by
  rw [altTexts, altTexts, List.append_nil]
  exact escapeLiteral_never probe (.plain t)

/-! ## What a place makes of an inline -/

theorem inlinesSteps_append (is js : List Inline) :
    inlinesSteps probe (is ++ js) = inlinesSteps probe is ++ inlinesSteps probe js := by
  induction is with
  | nil => rfl
  | cons i is ih => rw [List.cons_append, inlinesSteps, ih, inlinesSteps, List.append_assoc]

theorem altTexts_append (is js : List Inline) : altTexts probe (is ++ js) = altTexts probe is ++ altTexts probe js := by
  induction is with
  | nil => rfl
  | cons i is ih => rw [List.cons_append, altTexts, ih, altTexts, List.append_assoc]

variable {i j : Inline}

theorem altTexts_fill (h : altText probe i = altText probe j) (slot : Inline.Slot) :
    altTexts probe (slot.fill i) = altTexts probe (slot.fill j) := by
  induction slot with
  | here before after => simp only [Inline.Slot.fill, altTexts_append, altTexts, h]
  | link before target slot after ih | image before target slot after ih =>
    simp only [Inline.Slot.fill, altTexts_append, altTexts, altText, ih]
  | strong before slot after ih | emphasis before slot after ih =>
    simp only [Inline.Slot.fill, altTexts_append, altTexts, altText, ih]

/-- Two inlines with the same steps and the same text in labels have the same steps in every place. -/
theorem inlinesSteps_fill (hsteps : inlineSteps probe i = inlineSteps probe j)
    (halt : altText probe i = altText probe j) (slot : Inline.Slot) :
    inlinesSteps probe (slot.fill i) = inlinesSteps probe (slot.fill j) := by
  induction slot with
  | here before after => simp only [Inline.Slot.fill, inlinesSteps_append, inlinesSteps, hsteps]
  | link before target slot after ih =>
    simp only [Inline.Slot.fill, inlinesSteps_append, inlinesSteps, inlineSteps, ih]
  | image before target slot after ih =>
    -- only the text of a label is left
    simp only [Inline.Slot.fill, inlinesSteps_append, inlinesSteps, inlineSteps, altTexts_fill probe halt slot]
  | strong before slot after ih | emphasis before slot after ih =>
    simp only [Inline.Slot.fill, inlinesSteps_append, inlinesSteps, inlineSteps, ih]

theorem blockSteps_fill (hsteps : inlineSteps probe i = inlineSteps probe j)
    (halt : altText probe i = altText probe j) (slot : Block.Slot) (tight : Bool) :
    blockSteps probe tight (slot.fill i) = blockSteps probe tight (slot.fill j) := by
  induction slot generalizing tight with
  | inlines kind literal children slot =>
    simp only [Block.Slot.fill, blockSteps, inlinesSteps_fill probe hsteps halt slot]
  | child kind literal before slot after own ih =>
    have hblocks : ∀ t, blocksSteps probe t (before ++ slot.fill i :: after) =
        blocksSteps probe t (before ++ slot.fill j :: after) := by
      intro t
      simp only [blocksSteps_append, blocksSteps, ih]
    simp only [Block.Slot.fill, blockSteps, hblocks]

end

/-! ## Where an image is shown -/

theorem endsLine_markWrite (flag : Bool) (m : Mark) : endsLine flag m.write = false := by
  rw [Mark.write, endsLine_append]
  rfl

/-- Trimming stops at a tag. -/
theorem trimEnd_append_markWrite (before after : Text) (m : Mark) :
    (before ++ m.write ++ after).trimEnd = before ++ m.write ++ after.trimEnd := by
  have htag : m.write.trimEnd = m.write := Atom.trimEnd_write (.mark m)
  have hne : m.write ≠ [] := List.cons_ne_nil _ _
  rw [Text.trimEnd_append]
  split
  · rename_i hafter
    rw [Text.trimEnd_append, htag, if_neg hne, hafter, List.append_nil]
  · rfl

/-- Whether steps that depend on a label write the tag of the image with that label between two texts that do not. -/
def Frames (probe : Probe) (target : Target) (steps : List Inline → List Step) : Prop :=
  ∀ flag, ∃ before after, ∀ label,
    transcript flag (steps label) = before ++ (imageMark probe target (altTexts probe label)).write ++ after

namespace Frames

variable {probe : Probe} {target : Target} {steps : List Inline → List Step}

theorem image (probe : Probe) (target : Target) :
    Frames probe target fun label => inlineSteps probe (.image target label) := by
  intro flag
  refine ⟨[], [], fun label => ?_⟩
  rw [transcript_of_isText (all_isText_image probe target label), flatMap_output_image]
  simp

theorem prepend (ss : List Step) (h : Frames probe target steps) :
    Frames probe target fun label => ss ++ steps label := by
  intro flag
  obtain ⟨before, after, hsteps⟩ := h (endsLine flag (transcript flag ss))
  refine ⟨transcript flag ss ++ before, after, fun label => ?_⟩
  rw [transcript_append, hsteps, List.append_assoc, List.append_assoc, List.append_assoc]

/-- What follows starts where the text after the tag ends, or behind its bracket; no label changes that. -/
theorem append (h : Frames probe target steps) (ss : List Step) :
    Frames probe target fun label => steps label ++ ss := by
  intro flag
  obtain ⟨before, after, hsteps⟩ := h flag
  refine ⟨before, after ++ transcript (endsLine false after) ss, fun label => ?_⟩
  rw [transcript_append, hsteps, endsLine_append, endsLine_append, endsLine_markWrite, List.append_assoc]

/-- Steps between others. -/
theorem between (ss : List Step) (h : Frames probe target steps) (ss' : List Step) :
    Frames probe target fun label => ss ++ steps label ++ ss' :=
  (h.prepend ss).append ss'

/-- Of the body of an item only what follows the tag is trimmed. -/
theorem item (h : Frames probe target steps) :
    Frames probe target fun label => itemSteps (transcript false (steps label)) := by
  intro flag
  obtain ⟨before, after, hsteps⟩ := h false
  refine ⟨Step.freshLine.output flag ++ "<li>".toList ++ before,
    after.trimEnd ++ (if '\n' ∈ after.drop after.trimEnd.length then ['\n'] else []) ++ "</li>\n".toList,
    fun label => ?_⟩
  have hcut : ∀ u : Text, (u ++ after).drop (u ++ after.trimEnd).length = after.drop after.trimEnd.length := by
    intro u
    rw [List.length_append, List.drop_length_add_append]
  have hkept : before ++ (imageMark probe target (altTexts probe label)).write ++ after.trimEnd ≠ [] := by
    simp [Mark.write]
  simp only [transcript_itemSteps, hsteps, trimEnd_append_markWrite, hcut, hkept, ne_eq, not_false_eq_true, true_and]
  simp only [List.append_assoc]

end Frames

section

variable (probe : Probe) (target : Target)

theorem frames_inlines (slot : Inline.Slot) (h : slot.isShown = true) :
    Frames probe target fun label => inlinesSteps probe (slot.fill (.image target label)) := by
  induction slot with
  | here before after =>
    simp only [Inline.Slot.fill, inlinesSteps_append, inlinesSteps]
    exact ((Frames.image probe target).append _).prepend _
  | image => cases h
  | link before other slot after ih =>
    simp only [Inline.Slot.fill, inlinesSteps_append, inlinesSteps, inlineSteps]
    exact (((ih h).between _ _).append _).prepend _
  | strong before slot after ih | emphasis before slot after ih =>
    simp only [Inline.Slot.fill, inlinesSteps_append, inlinesSteps, inlineSteps]
    exact (((ih h).between [_] _).append _).prepend _

/-- **A place frames the tag of the image in it** by what the tree writes before and after. The cases are the kinds of
block that show what they hold. -/
theorem frames_block (slot : Block.Slot) (h : slot.isShown = true) (tight : Bool) :
    Frames probe target fun label => blockSteps probe tight (slot.fill (.image target label)) := by
  induction slot generalizing tight with
  | inlines kind literal children slot =>
    rw [Block.Slot.isShown, Bool.and_eq_true] at h
    have hinlines := frames_inlines probe target slot h.2
    cases kind with
    | paragraph =>
      cases tight with
      | true => exact hinlines
      | false => exact hinlines.between _ _
    | atxHeader level | setextHeader level => exact hinlines.between _ _
    | _ => cases h.1
  | child kind literal before slot after own ih =>
    rw [Block.Slot.isShown, Bool.and_eq_true] at h
    have hblocks : ∀ t, Frames probe target fun label =>
        blocksSteps probe t (before ++ slot.fill (.image target label) :: after) := by
      intro t
      simp only [blocksSteps_append, blocksSteps]
      exact ((ih h.2 t).append _).prepend _
    cases kind with
    | document => exact hblocks false
    | blockQuote => exact (hblocks false).between _ _
    | list style items => exact (hblocks items).between _ _
    | listItem => exact (hblocks tight).item
    | _ => cases h.1

/-- **The label of an image is shown as its flat text.** An image, wherever it stands and whatever it is rendered into,
is rendered like one with that text as its label. Where it is shown, its tag stands in the output with a value that may
stand between double quotes and that decodes to the text. -/
theorem render_image :
    (∀ label, Inline.areReferenceFree label = true →
      ∀ (slot : Block.Slot) (tight : Bool) (σ : Type) [Sink σ] (w : Writer σ),
        render probe tight (slot.fill (.image target label)) w =
          render probe tight (slot.fill (.image target [.text (.plain (Inline.flatTexts label))])) w) ∧
    ∀ slot : Block.Slot, slot.isShown = true → ∀ (tight flag : Bool) (held : Text), ∃ before after,
      ∀ label, Inline.areReferenceFree label = true → ∃ value flag',
        render probe tight (slot.fill (.image target label)) ⟨Buffer.ofText held none, flag⟩ =
          (⟨Buffer.ofText (held ++ before ++ (imageMark probe target value).write ++ after) none, flag'⟩, .ok ()) ∧
        Mark.isQuotable value = true ∧ decode value = Inline.flatTexts label := by
  constructor
  · intro label hlabel slot tight σ _ w
    have halt : altTexts probe label = altTexts probe [.text (.plain (Inline.flatTexts label))] := by
      rw [altTexts_eq probe label hlabel, altTexts_text]
    have hsteps : inlineSteps probe (.image target label) =
        inlineSteps probe (.image target [.text (.plain (Inline.flatTexts label))]) := by
      rw [inlineSteps, inlineSteps, halt]
    rw [render, render, blockSteps_fill probe hsteps halt]
  · intro slot hslot tight flag held
    obtain ⟨before, after, hframes⟩ := frames_block probe target slot hslot tight flag
    refine ⟨before, after, fun label hlabel => ?_⟩
    have hrender := render_ofText probe tight (slot.fill (.image target label)) held flag
    rw [hframes, ← List.append_assoc, ← List.append_assoc] at hrender
    have hquotable : Mark.isQuotable (altTexts probe label) = true := by
      rw [altTexts_eq probe label hlabel, ← escapeText_never probe]
      exact isQuotable_escapeText false probe _
    have hdecode : decode (altTexts probe label) = Inline.flatTexts label := by
      rw [altTexts_eq probe label hlabel, decode_escape]
    exact ⟨_, _, hrender, hquotable, hdecode⟩

end

/-- A link, a break, an image with HTML in its own label, and code. -/
def nestedLabel : List Inline :=
  let text (s : String) : Literal := .plain s.toList
  [.link ⟨"u".toList, none⟩ [.text (text "a")], .softBreak,
    .image ⟨"v".toList, some "t".toList⟩ [.strong [.rawHtml (text "<b>")]], .code (text "\"&\"")]

/-- After a text in a tight list that is quoted. -/
def quotedItem : Block.Slot :=
  .child .blockQuote none []
    (.child (.list (.bullet '-') true) none []
      (.child .listItem none [] (.inlines .paragraph none [] (.here [.text (.plain "x".toList)] [])) [] []) [] []) [] []

theorem render_image_nestedLabel :
    ∃ before after value flag,
      render .html5 false (quotedItem.fill (.image ⟨"w".toList, none⟩ nestedLabel)) (⟨{}, true⟩ : Writer Buffer) =
        (⟨Buffer.ofText (before ++ (imageMark .html5 ⟨"w".toList, none⟩ value).write ++ after) none, flag⟩, .ok ()) ∧
      Mark.isQuotable value = true ∧ decode value = "a <b>\"&\"".toList ∧
      render .html5 false (quotedItem.fill (.image ⟨"w".toList, none⟩ nestedLabel)) (⟨{}, true⟩ : Writer Buffer) =
        render .html5 false (quotedItem.fill (.image ⟨"w".toList, none⟩ [.text (.plain "a <b>\"&\"".toList)]))
          ⟨{}, true⟩ := by
  obtain ⟨hsame, hshown⟩ := render_image .html5 ⟨"w".toList, none⟩
  obtain ⟨before, after, hvalue⟩ := hshown quotedItem (by decide) false true []
  obtain ⟨value, flag, hrender, hquotable, hdecode⟩ := hvalue nestedLabel (by decide)
  exact ⟨before, after, value, flag, hrender, hquotable, hdecode,
    hsame nestedLabel (by decide) quotedItem false Buffer ⟨{}, true⟩⟩

end Html

end CommonMark
