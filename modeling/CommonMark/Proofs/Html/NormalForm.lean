import CommonMark.Proofs.Html.Escaping
import CommonMark.Proofs.Html.Transcript
import CommonMark.Proofs.Translation
import Mathlib.Data.List.TakeWhile

/-!
# Normal forms

Much of a tree does not show: how its texts are cut into segments, how its headers and lists were marked, what follows
the first word of an info string, link definitions, and the fields that a kind of block does not use. The normal form
of a tree (`Block.normal`) is the tree without all that, and rendering sees nothing else (`render_normal`). The steps
of the two trees are not the same, since a literal is written segment by segment; they write the same wherever they
start (`Alike`).
-/

namespace CommonMark

/-! ## What is left of a tree -/

/-- A literal as one plain text. -/
def Literal.joined (l : Literal) : Literal := .plain l.text

namespace Inline

mutual

/-- An inline with its literals joined. -/
def normal : Inline → Inline
  | text l => .text l.joined
  | lineBreak => .lineBreak
  | softBreak => .softBreak
  | code l => .code l.joined
  | rawHtml l => .rawHtml l.joined
  | entity l => .entity l.joined
  | link target label => .link target (normalAll label)
  | image target label => .image target (normalAll label)
  | strong cs => .strong (normalAll cs)
  | emphasis cs => .emphasis (normalAll cs)

def normalAll : List Inline → List Inline
  | [] => []
  | i :: is => normal i :: normalAll is

end

end Inline

namespace BlockKind

/-- Whether blocks of this kind use their inlines. -/
def holdsInlines : BlockKind → Bool
  | paragraph | atxHeader _ | setextHeader _ => true
  | _ => false

/-- A kind without the marks it was written with. Of an info string the first word is left, and code without one is
indented. -/
def normal : BlockKind → BlockKind
  | setextHeader level => .atxHeader level
  | list (.bullet _) tight => .list (.bullet '-') tight
  | list (.ordered start _) tight => .list (.ordered start .period) tight
  | fencedCode info => info.firstWord?.elim .indentedCode .fencedCode
  | kind => kind

end BlockKind

namespace Block

mutual

/-- The normal form of a block: it keeps the fields that its kind uses, and no definition below it. -/
def normal : Block → Block
  | ⟨kind, literal, children, inlines⟩ =>
    { kind := kind.normal
      literal := if kind.isVerbatim then literal.map (·.joined) else none
      children := if kind.isContainer then normalAll children else []
      inlines := if kind.holdsInlines then Inline.normalAll inlines else [] }

/-- The normal forms of blocks, without the definitions. -/
def normalAll : List Block → List Block
  | [] => []
  | b :: bs => if b.kind.isDefinition then normalAll bs else normal b :: normalAll bs

end

end Block

namespace Html

/-! ## Steps that write the same -/

/-- Whether steps write the same, wherever the sink stands before them. -/
def Alike (ss ss' : List Step) : Prop := ∀ flag, transcript flag ss = transcript flag ss'

namespace Alike

variable {ss ss' ts ts' : List Step}

theorem refl (ss : List Step) : Alike ss ss := fun _ => rfl

/-- What is written alike leaves the sink alike, so what comes after it is written alike. -/
theorem append (h : Alike ss ss') (h' : Alike ts ts') : Alike (ss ++ ts) (ss' ++ ts') := by
  intro flag
  rw [transcript_append, transcript_append, h flag, h']

/-- Between steps that both have. -/
theorem between (h : Alike ss ss') (before after : List Step) : Alike (before ++ ss ++ after) (before ++ ss' ++ after) :=
  ((refl before).append h).append (refl after)

/-- Texts are alike when they join to one text. -/
theorem of_texts {us us' : List Text} (h : us.flatten = us'.flatten) : Alike (us.map .text) (us'.map .text) := by
  intro flag
  rw [transcript_map_text, transcript_map_text, h]

end Alike

/-! ## Literals and running text -/

theorem escapeLiteral_joined (probe : Probe) (l : Literal) :
    escapeLiteral false probe l.joined = escapeLiteral false probe l := by
  rw [escapeLiteral_never, escapeLiteral_never]
  rfl

/-- A literal is escaped window by window; joined it is one window. -/
theorem alike_textSteps (probe : Probe) (l : Literal) : Alike (textSteps probe l.joined) (textSteps probe l) :=
  .of_texts (escapeLiteral_joined probe l)

theorem alike_verbatim (l : Literal) : Alike (verbatim l.joined) (verbatim l) := by
  have htexts : ∀ l : Literal, verbatim l = (l.chunks.map (·.text)).map .text := by
    intro l
    rw [List.map_map]
    rfl
  rw [htexts, htexts]
  refine .of_texts ?_
  rw [← List.flatMap_def, ← List.flatMap_def, Literal.flatMap_chunks, Literal.flatMap_chunks]
  rfl

mutual

theorem altText_normal (probe : Probe) : ∀ i : Inline, altText probe i.normal = altText probe i
  | .text l | .code l | .rawHtml l => escapeLiteral_joined probe l
  | .entity _ | .lineBreak | .softBreak => rfl
  | .link _ label | .image _ label => altTexts_normal probe label
  | .strong cs | .emphasis cs => altTexts_normal probe cs

theorem altTexts_normal (probe : Probe) : ∀ is : List Inline, altTexts probe (Inline.normalAll is) = altTexts probe is
  | [] => rfl
  | i :: is => by
    rw [Inline.normalAll, altTexts, altText_normal probe i, altTexts_normal probe is, altTexts]

end

mutual

theorem alike_inline (probe : Probe) : ∀ i : Inline, Alike (inlineSteps probe i.normal) (inlineSteps probe i)
  | .text l => alike_textSteps probe l
  | .lineBreak | .softBreak => .refl _
  | .code l => (alike_textSteps probe l).between [markup "<code>"] [markup "</code>"]
  | .rawHtml l | .entity l => alike_verbatim l
  | .link _ label => (alike_inlines probe label).between _ [markup "</a>"]
  | .image target label => by
    rw [Inline.normal, inlineSteps, altTexts_normal probe label, ← inlineSteps]
    exact .refl _
  | .strong cs => (alike_inlines probe cs).between [markup "<strong>"] [markup "</strong>"]
  | .emphasis cs => (alike_inlines probe cs).between [markup "<em>"] [markup "</em>"]

theorem alike_inlines (probe : Probe) : ∀ is : List Inline,
    Alike (inlinesSteps probe (Inline.normalAll is)) (inlinesSteps probe is)
  | [] => .refl _
  | i :: is => (alike_inline probe i).append (alike_inlines probe is)

end

/-! ## Blocks -/

theorem alike_codeBody (probe : Probe) (l : Option Literal) :
    Alike (codeBody probe (l.map (·.joined))) (codeBody probe l) := by
  cases l with
  | none => exact .refl _
  | some l => exact (alike_textSteps probe l).append (.refl _)

/-- The first word of a text is a word of its own. -/
theorem firstWord?_of_firstWord? {t w : Text} (h : t.firstWord? = some w) : w.firstWord? = some w := by
  unfold Text.firstWord? at h
  split at h
  · cases h
  · rename_i c w' heq
    cases h
    have hc : isWordGap c = false := by
      have hmem : c ∈ (t.dropWhile isWordGap).takeWhile (fun c => !isWordGap c) := heq ▸ List.mem_cons_self
      simpa using List.mem_takeWhile_imp hmem
    have hdrop : (c :: w').dropWhile isWordGap = c :: w' := List.dropWhile_cons_of_neg (by simp [hc])
    have htake : (c :: w').takeWhile (fun c => !isWordGap c) = c :: w' := by rw [← heq, List.takeWhile_idem]
    rw [Text.firstWord?, hdrop, htake]

/-- Code without a language is written like indented code, with the opening tag in two parts. -/
theorem alike_fencedCode (probe : Probe) (tight : Bool) (info : Text) (literal : Option Literal) :
    Alike (blockSteps probe tight { kind := BlockKind.normal (.fencedCode info), literal := literal.map (·.joined) })
      (blockSteps probe tight { kind := .fencedCode info, literal }) := by
  have hcode := alike_codeBody probe literal
  cases hword : info.firstWord? with
  | none =>
    have hopening : Alike [.freshLine, markup "<pre><code>"] [.freshLine, markup "<pre><code", markup ">"] :=
      (Alike.refl [.freshLine]).append (@Alike.of_texts [_] [_, _] rfl)
    simp only [BlockKind.normal, hword, Option.elim_none, blockSteps, List.append_nil]
    exact hopening.append hcode
  | some language =>
    simp only [BlockKind.normal, hword, Option.elim_some, blockSteps, firstWord?_of_firstWord? hword]
    exact (Alike.refl _).append hcode

mutual

/-- **A block is written like its normal form.** -/
theorem alike_block (probe : Probe) : ∀ (tight : Bool) (b : Block),
    Alike (blockSteps probe tight b.normal) (blockSteps probe tight b)
  | tight, ⟨kind, literal, children, inlines⟩ => by
    have hblocks := fun tight => alike_blocks probe tight children
    have hinlines := alike_inlines probe inlines
    have hcode := alike_codeBody probe literal
    rw [Block.normal]
    cases kind with
    | document => exact hblocks false
    | paragraph =>
      cases tight with
      | true => exact hinlines
      | false => exact hinlines.between [.freshLine, markup "<p>"] [markup "</p>", .newline]
    | blockQuote => exact (hblocks false).between [.freshLine, markup "<blockquote>", .newline] _
    | list style tightItems =>
      cases style with
      | bullet marker => exact (hblocks tightItems).between [.freshLine, markup "<ul>", .newline] _
      | ordered start delimiter => exact (hblocks tightItems).between [.freshLine, listOpening _, .newline] _
    | listItem =>
      -- the body is rendered apart, and as a whole text at that
      have hbody := hblocks tight false
      show Alike (itemSteps (transcript false (blocksSteps probe tight (Block.normalAll children)))) _
      rw [hbody]
      exact .refl _
    | atxHeader level | setextHeader level =>
      exact hinlines.between [.freshLine, headerTag "<h" level] [headerTag "</h" level, .newline]
    | indentedCode => exact (Alike.refl _).append hcode
    | fencedCode info => exact alike_fencedCode probe tight info literal
    | htmlBlock =>
      cases literal with
      | none => exact .refl _
      | some l => exact (Alike.refl [.freshLine]).append (alike_verbatim l)
    | horizontalRuler | referenceDefinition label => exact .refl _

theorem alike_blocks (probe : Probe) : ∀ (tight : Bool) (bs : List Block),
    Alike (blocksSteps probe tight (Block.normalAll bs)) (blocksSteps probe tight bs)
  | _, [] => .refl _
  | tight, b :: bs => by
    have hrest := alike_blocks probe tight bs
    rw [Block.normalAll]
    cases hk : b.kind.isDefinition with
    | true =>
      have hnothing : blockSteps probe tight b = [] := by
        obtain ⟨kind, literal, children, inlines⟩ := b
        cases kind with
        | referenceDefinition label => rfl
        | _ => cases hk
      rw [blocksSteps, hnothing]
      exact hrest
    | false => exact (alike_block probe tight b).append hrest

end

/-- **Rendering sees a tree's normal form alone**: into a buffer without limit, whatever it holds and wherever it
stands, a tree and its normal form are rendered without an error to the same text and leave the same flag. -/
theorem render_normal (probe : Probe) (tight : Bool) (root : Block) (held : Text) (flag : Bool) :
    ∃ (t : Text) (flag' : Bool),
      render probe tight root ⟨Buffer.ofText held none, flag⟩ = (⟨Buffer.ofText (held ++ t) none, flag'⟩, .ok ()) ∧
      render probe tight root.normal ⟨Buffer.ofText held none, flag⟩ =
        (⟨Buffer.ofText (held ++ t) none, flag'⟩, .ok ()) := by
  have hbuffer : ∀ t : Text, Buffer.ofText (held ++ t) none = ⟨t.reverse ++ held.reverse, none⟩ := by
    intro t
    rw [Buffer.ofText, List.reverse_append]
    rfl
  have hroot := render_of_no_limit probe tight root held.reverse flag
  have hnormal := render_of_no_limit probe tight root.normal held.reverse flag
  rw [alike_block probe tight root flag] at hnormal
  rw [← hbuffer] at hroot hnormal
  exact ⟨_, _, hroot, hnormal⟩

end Html

end CommonMark
