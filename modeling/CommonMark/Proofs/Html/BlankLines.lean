import CommonMark.Proofs.Html.WellFormed

/-!
# No blank lines

A renderer ends lines in four ways: a fresh line where one is needed, a newline after a closing tag, the newline that
may start the body of an item, and the one put back after trimming it. However blocks are nested, none of them comes
right after another or at the start of the output (`render_noBlankLine`), as long as no text of the tree has a newline
of its own. The invariant is `Packed`: a text written after a flag has no empty line when the flag says whether it
starts one. It passes to concatenations (`Packed.append`) and to beginnings (`Packed.of_append`), and so to what
trimming leaves of an item's body.
-/

namespace CommonMark

/-! ## Trees of one-line texts -/

/-- Whether a text has no newline. -/
def Text.isLine (t : Text) : Bool := !t.contains '\n'

def Target.isLine (target : Target) : Bool := target.url.isLine && target.title.all Text.isLine

namespace Inline

mutual

/-- Whether no literal, URL or title of an inline has a newline. `breaks` says whether breaks are allowed; in the label
of an image they are. -/
def isOneLine (breaks : Bool) : Inline → Bool
  | text l | code l | rawHtml l | entity l => l.text.isLine
  | lineBreak | softBreak => breaks
  | link target label => target.isLine && areOneLine breaks label
  | image target label => target.isLine && areOneLine true label
  | strong cs | emphasis cs => areOneLine breaks cs

def areOneLine (breaks : Bool) : List Inline → Bool
  | [] => true
  | i :: is => isOneLine breaks i && areOneLine breaks is

end

end Inline

namespace Block

mutual

/-- Whether no literal, URL or title of a tree has a newline and no break stands outside the labels of images. -/
def isOneLine : Block → Bool
  | ⟨_, literal, children, inlines⟩ =>
    literal.all (·.text.isLine) && areOneLine children && Inline.areOneLine false inlines

def areOneLine : List Block → Bool
  | [] => true
  | b :: bs => isOneLine b && areOneLine bs

end

end Block

theorem Text.isLine_iff {t : Text} : t.isLine = true ↔ '\n' ∉ t := by simp [Text.isLine]

theorem Text.isLine_append (s t : Text) : (s ++ t).isLine = (s.isLine && t.isLine) := by
  simp [Text.isLine, Bool.not_or]

/-- A word holds no white space that parts words. -/
theorem Text.isLine_firstWord {t w : Text} (h : t.firstWord? = some w) : w.isLine = true := by
  unfold Text.firstWord? at h
  split at h
  · cases h
  · rename_i c w' heq
    cases h
    rw [Text.isLine_iff]
    intro hmem
    rw [← heq] at hmem
    have hgap := List.all_eq_true.1 (List.all_takeWhile (p := fun c => !isWordGap c)) _ hmem
    exact absurd hgap (by decide)

namespace Html

/-! ## Escaped texts -/

theorem eq_of_mem_replacement {keep : Bool} {c : Char} (h : '\n' ∈ replacement keep c) : c = '\n' := by
  cases hs : isSpecial c with
  | false =>
    rw [replacement_of_not_special keep hs] at h
    exact (List.mem_singleton.1 h).symm
  | true => rcases special_cases hs with rfl | rfl | rfl | rfl <;> cases keep <;> exact absurd h (by decide)

theorem mem_of_mem_escapeChars {keeps : Nat → Bool} {offset : Nat} {t : Text}
    (h : '\n' ∈ escapeChars keeps offset t) : '\n' ∈ t := by
  induction t generalizing offset with
  | nil => exact h
  | cons c t ih =>
    rw [escapeChars, List.mem_append] at h
    rcases h with h | h
    · rw [eq_of_mem_replacement h]
      exact List.mem_cons_self
    · exact List.mem_cons_of_mem c (ih h)

/-- Escaping puts no newline in. -/
theorem isLine_escapeLiteral {l : Literal} (preserve : Bool) (probe : Probe) (h : l.text.isLine = true) :
    (escapeLiteral preserve probe l).isLine = true := by
  rw [Text.isLine_iff] at h ⊢
  intro hmem
  rw [escapeLiteral_eq, List.mem_flatMap] at hmem
  obtain ⟨w, hw, hmem⟩ := hmem
  refine h ?_
  rw [← Literal.flatMap_chunks]
  exact List.mem_flatMap.2 ⟨w, hw, mem_of_mem_escapeChars hmem⟩

/-! ## Texts without an empty line -/

/-- Whether a text has no empty line, when `atLineStart` says whether the text itself starts a line. -/
def Packed : Bool → Text → Prop
  | _, [] => True
  | atLineStart, c :: t => (c = '\n' → atLineStart = false) ∧ Packed (c = '\n') t

theorem endsLine_of_isLine {t : Text} (hne : t ≠ []) (h : t.isLine = true) (flag : Bool) : endsLine flag t = false := by
  rw [Text.isLine_iff] at h
  rcases List.eq_nil_or_concat t with rfl | ⟨u, c, rfl⟩
  · exact absurd rfl hne
  · have hc : c ≠ '\n' := by
      rintro rfl
      exact h (by simp)
    simp [endsLine, hc]

namespace Packed

variable {flag : Bool}

theorem append {s t : Text} (hs : Packed flag s) (ht : Packed (endsLine flag s) t) : Packed flag (s ++ t) := by
  induction s generalizing flag with
  | nil => exact ht
  | cons c s ih => exact ⟨hs.1, ih hs.2 (endsLine_cons flag c s ▸ ht)⟩

theorem of_append {s t : Text} (h : Packed flag (s ++ t)) : Packed flag s := by
  induction s generalizing flag with
  | nil => trivial
  | cons c s ih => exact ⟨h.1, ih h.2⟩

theorem trimEnd {t : Text} (h : Packed flag t) : Packed flag t.trimEnd := by
  obtain ⟨tail, hsplit, -⟩ := Text.trimEnd_append_blank t
  rw [hsplit] at h
  exact h.of_append

theorem line {t : Text} (h : t.isLine = true) : Packed flag t := by
  rw [Text.isLine_iff] at h
  induction t generalizing flag with
  | nil => trivial
  | cons c t ih =>
    rw [List.mem_cons, not_or] at h
    exact ⟨fun heq => absurd heq.symm h.1, ih h.2⟩

theorem newline : Packed false ['\n'] := ⟨fun _ => rfl, trivial⟩

theorem freshLine : Packed flag (Step.freshLine.output flag) := by
  cases flag with
  | true => trivial
  | false => exact newline

/-- A packed text has no two newlines next to each other, and none at its start when it starts a line. -/
theorem not_isInfix {t : Text} (h : Packed flag t) : ¬ ['\n', '\n'] <:+: t := by
  rintro ⟨before, after, rfl⟩
  rw [List.append_assoc] at h
  induction before generalizing flag with
  | nil => exact absurd (h.2.1 rfl) (by decide)
  | cons c before ih => exact ih h.2

theorem head?_ne {t : Text} (h : Packed true t) : t.head? ≠ some '\n' := by
  intro hhead
  obtain ⟨rest, rfl⟩ := List.head?_eq_some_iff.1 hhead
  exact absurd (h.1 rfl) (by decide)

end Packed

/-! ## Steps -/

/-- Whether a step writes a text without a newline. -/
def Step.isLine : Step → Bool
  | text t => t.isLine
  | newline | freshLine => false

/-- Whether steps write no empty line, wherever the sink stands. -/
def Packs (ss : List Step) : Prop := ∀ flag, Packed flag (transcript flag ss)

namespace Packs

theorem nil : Packs [] := fun _ => trivial

theorem append {ss ss' : List Step} (h : Packs ss) (h' : Packs ss') : Packs (ss ++ ss') := by
  intro flag
  rw [transcript_append]
  exact (h flag).append (h' _)

theorem freshLine : Packs [.freshLine] := by
  intro flag
  simpa only [transcript, List.append_nil] using Packed.freshLine

theorem text {t : Text} (h : t.isLine = true) : Packs [.text t] := by
  intro flag
  simpa only [transcript, Step.output, List.append_nil] using Packed.line h

/-- Steps within one line. -/
theorem line {ss : List Step} (h : ss.all Step.isLine = true) : Packs ss := by
  induction ss with
  | nil => exact nil
  | cons s ss ih =>
    rw [List.all_cons, Bool.and_eq_true] at h
    match s, h.1 with
    | .text t, ht => exact (text ht).append (ih h.2)

/-- The end of a line that is not empty. -/
theorem ended {t : Text} (hne : t ≠ []) (h : t.isLine = true) : Packs [.text t, .newline] := by
  intro flag
  have hend : Packed (endsLine flag t) ['\n'] := by
    rw [endsLine_of_isLine hne h]
    exact .newline
  exact (Packed.line h).append hend

/-- A line of its own. -/
theorem alone {t : Text} (hne : t ≠ []) (h : t.isLine = true) : Packs [.freshLine, .text t, .newline] :=
  freshLine.append (ended hne h)

end Packs

/-! ## Running text -/

section

variable (probe : Probe)

/-- The pieces of a text without a newline have none. -/
theorem all_isLine_pieces {l : Literal} (preserve : Bool) (h : l.text.isLine = true) :
    ((literalPieces preserve probe l).map Step.text).all Step.isLine = true := by
  have hline := isLine_escapeLiteral preserve probe h
  rw [Text.isLine_iff, escapeLiteral, List.mem_flatten] at hline
  rw [List.all_map, List.all_eq_true]
  intro piece hpiece
  exact Text.isLine_iff.2 fun hmem => hline ⟨piece, hpiece, hmem⟩

theorem all_isLine_titleSteps {target : Target} (h : target.isLine = true) :
    (titleSteps probe target).all Step.isLine = true := by
  simp only [Target.isLine, Bool.and_eq_true] at h
  unfold titleSteps
  split
  · rfl
  · rfl
  · rename_i c t heq
    have ht : Text.isLine (c :: t) = true := by
      have htitle := h.2
      rwa [heq] at htitle
    have hvalue : (valueSteps probe (c :: t)).all Step.isLine = true := all_isLine_pieces probe true ht
    rw [List.cons_append, List.all_cons, List.all_append, hvalue]
    rfl

theorem all_isLine_verbatim {l : Literal} (h : l.text.isLine = true) : (verbatim l).all Step.isLine = true := by
  rw [Text.isLine_iff, ← Literal.flatMap_chunks, List.mem_flatMap] at h
  rw [verbatim, List.all_map, List.all_eq_true]
  intro w hw
  exact Text.isLine_iff.2 fun hmem => h ⟨w, hw, hmem⟩

mutual

/-- Breaks in the label of an image become spaces. -/
theorem isLine_altText (breaks : Bool) : ∀ i : Inline, i.isOneLine breaks = true → (altText probe i).isLine = true
  | .text _, h | .code _, h | .rawHtml _, h => isLine_escapeLiteral false probe h
  | .entity _, h => h
  | .lineBreak, _ | .softBreak, _ => rfl
  | .link _ label, h => by
    rw [Inline.isOneLine, Bool.and_eq_true] at h
    exact isLine_altTexts breaks label h.2
  | .image _ label, h => by
    rw [Inline.isOneLine, Bool.and_eq_true] at h
    exact isLine_altTexts true label h.2
  | .strong cs, h | .emphasis cs, h => isLine_altTexts breaks cs h

theorem isLine_altTexts (breaks : Bool) : ∀ is : List Inline, Inline.areOneLine breaks is = true →
    (altTexts probe is).isLine = true
  | [], _ => rfl
  | i :: is, h => by
    rw [Inline.areOneLine, Bool.and_eq_true] at h
    rw [altTexts, Text.isLine_append, isLine_altText breaks i h.1, isLine_altTexts breaks is h.2]
    rfl

end

mutual

/-- Inlines without breaks stand in one line. -/
theorem all_isLine_inline : ∀ i : Inline, i.isOneLine false = true → (inlineSteps probe i).all Step.isLine = true
  | .text l, h => all_isLine_pieces probe false h
  | .lineBreak, h | .softBreak, h => nomatch h
  | .code l, h => by
    have htext : (textSteps probe l).all Step.isLine = true := all_isLine_pieces probe false h
    simp [inlineSteps, htext, markup, Step.isLine, Text.isLine]
  | .rawHtml l, h | .entity l, h => all_isLine_verbatim h
  | .link target label, h => by
    rw [Inline.isOneLine, Bool.and_eq_true] at h
    obtain ⟨htarget, hlabel⟩ := h
    have hurl : (valueSteps probe target.url).all Step.isLine = true :=
      all_isLine_pieces probe true (Bool.and_eq_true_iff.1 htarget).1
    have htitle := all_isLine_titleSteps probe htarget
    have hinlines := all_isLine_inlines label hlabel
    simp [inlineSteps, hurl, htitle, hinlines, markup, Step.isLine, Text.isLine]
  | .image target label, h => by
    rw [Inline.isOneLine, Bool.and_eq_true] at h
    obtain ⟨htarget, hlabel⟩ := h
    have hurl : (valueSteps probe target.url).all Step.isLine = true :=
      all_isLine_pieces probe true (Bool.and_eq_true_iff.1 htarget).1
    have htitle := all_isLine_titleSteps probe htarget
    have halt := isLine_altTexts probe true label hlabel
    simp only [inlineSteps, List.cons_append, List.all_cons, List.all_append, List.all_nil, hurl, htitle, halt, markup,
      Step.isLine]
    decide
  | .strong cs, h | .emphasis cs, h => by
    have hinlines := all_isLine_inlines cs h
    simp [inlineSteps, hinlines, markup, Step.isLine, Text.isLine]

theorem all_isLine_inlines : ∀ is : List Inline, Inline.areOneLine false is = true →
    (inlinesSteps probe is).all Step.isLine = true
  | [], _ => rfl
  | i :: is, h => by
    rw [Inline.areOneLine, Bool.and_eq_true] at h
    rw [inlinesSteps, List.all_append, all_isLine_inline i h.1, all_isLine_inlines is h.2]
    rfl

end

end

/-! ## Blocks -/

theorem endsLine_freshLine (flag : Bool) : endsLine flag (Step.freshLine.output flag) = true := by cases flag <;> rfl

/-- Trimming leaves the sink in the middle of a line. -/
theorem endsLine_trimEnd (t : Text) : endsLine false t.trimEnd = false := by
  unfold endsLine
  cases hlast : t.trimEnd.getLast? with
  | none => rfl
  | some c =>
    have hc := Text.isBlank_getLast?_trimEnd hlast
    refine decide_eq_false ?_
    rintro rfl
    exact absurd hc (by decide)

/-- The body of an item is packed apart, after a tag; what is left of it does not end with a newline. -/
theorem packs_item {body : Text} (h : Packed false body) : Packs (itemSteps body) := by
  intro flag
  have hopen : Packed flag (Step.freshLine.output flag ++ "<li>".toList ++ body.trimEnd) := by
    refine (Packed.freshLine.append (.line (by decide))).append ?_
    rw [endsLine_append, endsLine_freshLine]
    exact h.trimEnd
  have hflag : endsLine flag (Step.freshLine.output flag ++ "<li>".toList ++ body.trimEnd) = false := by
    rw [endsLine_append, endsLine_append, endsLine_freshLine]
    exact endsLine_trimEnd body
  have hnewline : ∀ (p : Prop) [Decidable p], Packed false (if p then ['\n'] else []) := by
    intro p _
    split
    · exact .newline
    · trivial
  have hclose : ∀ flag, Packed flag "</li>\n".toList := by
    intro flag
    have hline : Packed flag "</li>".toList := .line (by decide)
    exact hline.append (t := ['\n']) .newline
  rw [transcript_itemSteps]
  refine (hopen.append ?_).append (hclose _)
  rw [hflag]
  exact hnewline _

theorem isLine_toString (n : Nat) : Text.isLine (toString n).toList = true := by
  rw [Text.isLine_iff]
  intro hmem
  exact absurd (isDigit_of_mem_toString hmem) (by decide)

theorem packs_header (level : Nat) {body : List Step} (h : Packs body) :
    Packs ([.freshLine, headerTag "<h" level] ++ body ++ [headerTag "</h" level, .newline]) := by
  have htag : ∀ s : String, Text.isLine s.toList = true →
      Text.isLine (s.toList ++ (toString level).toList ++ ['>']) = true := by
    intro s hs
    rw [Text.isLine_append, Text.isLine_append, hs, isLine_toString]
    rfl
  have hopen : Packs [headerTag "<h" level] := .text (htag "<h" (by decide))
  have hclose : Packs [headerTag "</h" level, .newline] := .ended (by simp) (htag "</h" (by decide))
  exact ((Packs.freshLine.append hopen).append h).append hclose

theorem packs_list (style : ListStyle) {body : List Step} (h : Packs body) :
    Packs ([.freshLine, listOpening style, .newline] ++ body ++ [.freshLine, listClosing style, .newline]) := by
  cases style with
  | bullet marker =>
    exact (Packs.append (.alone (by decide) (by decide)) h).append (.alone (by decide) (by decide))
  | ordered start delimiter =>
    have hopen : Packs [.freshLine, listOpening (.ordered start delimiter), .newline] := by
      unfold listOpening
      by_cases hs : start = 1
      · simp only [hs, ite_true]
        exact .alone (by decide) (by decide)
      · simp only [hs, ite_false]
        refine .alone (by simp) ?_
        rw [Text.isLine_append, Text.isLine_append, isLine_toString]
        decide
    exact (hopen.append h).append (.alone (by decide) (by decide))

section

variable (probe : Probe)

theorem packs_code {l : Option Literal} (h : l.all (·.text.isLine) = true) {ss : List Step} (hs : Packs ss) :
    Packs (ss ++ codeBody probe l) := by
  have hbody : Packs (l.elim [] (textSteps probe)) := by
    cases l with
    | none => exact .nil
    | some l => exact .line (all_isLine_pieces probe false (by simpa using h))
  exact hs.append (hbody.append (.ended (by decide) (by decide)))

/-- A language is a word, so its tag stands in one line whatever the info string is. -/
theorem packs_language (info : Text) :
    Packs (match info.firstWord? with
      | none => []
      | some language => markup " class=\"language-" :: valueSteps probe language ++ [markup "\""]) := by
  cases hword : info.firstWord? with
  | none => exact .nil
  | some language =>
    have hvalue : (valueSteps probe language).all Step.isLine = true :=
      all_isLine_pieces probe true (Text.isLine_firstWord hword)
    refine .line ?_
    simp [hvalue, markup, Step.isLine, Text.isLine]

mutual

/-- **The steps of a tree of one-line texts write no empty line.** -/
theorem packs_block : ∀ (tight : Bool) (b : Block), b.isOneLine = true → Packs (blockSteps probe tight b)
  | tight, ⟨kind, literal, children, inlines⟩, h => by
    simp only [Block.isOneLine, Bool.and_eq_true] at h
    obtain ⟨⟨hl, hc⟩, hi⟩ := h
    have hblocks := fun t => packs_blocks t children hc
    have hinlines : Packs (inlinesSteps probe inlines) := .line (all_isLine_inlines probe inlines hi)
    cases kind with
    | document => exact hblocks false
    | paragraph =>
      cases tight with
      | true => exact hinlines
      | false =>
        have hopen : Packs [.freshLine, markup "<p>"] := Packs.freshLine.append (.line (by decide))
        exact (hopen.append hinlines).append (.ended (by decide) (by decide))
    | blockQuote =>
      exact (Packs.append (.alone (by decide) (by decide)) (hblocks false)).append (.alone (by decide) (by decide))
    | list style t => exact packs_list style (hblocks t)
    | listItem => exact packs_item (hblocks tight false)
    | atxHeader level | setextHeader level => exact packs_header level hinlines
    | indentedCode =>
      have hopen : Packs [.freshLine, markup "<pre><code>"] := Packs.freshLine.append (.line (by decide))
      exact packs_code probe hl hopen
    | fencedCode info =>
      have hopen : Packs [.freshLine, markup "<pre><code"] := Packs.freshLine.append (.line (by decide))
      have hend : Packs [markup ">"] := .line (by decide)
      exact packs_code probe hl ((hopen.append (packs_language probe info)).append hend)
    | htmlBlock =>
      cases literal with
      | none => exact .freshLine
      | some l => exact Packs.freshLine.append (.line (all_isLine_verbatim (by simpa using hl)))
    | horizontalRuler => exact .alone (by decide) (by decide)
    | referenceDefinition label => exact .nil

theorem packs_blocks : ∀ (tight : Bool) (bs : List Block), Block.areOneLine bs = true →
    Packs (blocksSteps probe tight bs)
  | _, [], _ => .nil
  | tight, b :: bs, h => by
    rw [Block.areOneLine, Bool.and_eq_true] at h
    exact (packs_block tight b h.1).append (packs_blocks tight bs h.2)

end

end

/-- An HTML block and an empty one in a tight list in a quote, with markup of their own in the text. -/
def oneLineSample : Block :=
  let image : Inline := .image ⟨"u".toList, some "t".toList⟩ [.softBreak, .text (.plain "x ".toList)]
  let item (children : List Block) : Block := { kind := .listItem, children }
  let paragraph : Block :=
    { kind := .paragraph, inlines := [.rawHtml (.plain "<b>".toList), .entity (.plain "&amp;".toList), image] }
  let html (literal : Option Literal) : Block := { kind := .htmlBlock, literal }
  .document [{ kind := .blockQuote, children := [
    { kind := .list (.bullet '-') true
      children := [item [html none, paragraph, html (some (.plain "<hr> ".toList))], item [html none]] }] }]

/-- **Rendering puts in no blank line**: a tree without newlines in its texts is rendered into an empty buffer without
an error, and the output neither starts with a newline nor has two of them next to each other. -/
theorem render_noBlankLine (probe : Probe) (tight : Bool) (root : Block) (h : root.isOneLine = true) :
    ∃ w : Writer Buffer, render probe tight root ⟨{}, true⟩ = (w, .ok ()) ∧
      w.sink.text.head? ≠ some '\n' ∧ ¬ ['\n', '\n'] <:+: w.sink.text := by
  refine ⟨_, render_of_no_limit probe tight root [] true, ?_⟩
  rw [Buffer.text, List.append_nil, List.reverse_reverse]
  have hpacked := packs_block probe tight root h true
  exact ⟨hpacked.head?_ne, hpacked.not_isInfix⟩

theorem render_noBlankLine_oneLineSample :
    oneLineSample.isOneLine = true ∧ ∃ w : Writer Buffer,
      render .html5 false oneLineSample ⟨{}, true⟩ = (w, .ok ()) ∧
        w.sink.text.head? ≠ some '\n' ∧ ¬ ['\n', '\n'] <:+: w.sink.text :=
  ⟨by decide, render_noBlankLine .html5 false oneLineSample (by decide)⟩

end Html

end CommonMark
