import CommonMark.Proofs.Html.WellFormed

/-!
# Block tags start lines

A renderer never looks at what it has written, only at the flag of its writer, and the body of a list item is
written apart with a flag of its own. Still every tag of a block stands at the start of a line
(`startsLine_of_startsBlockTag`). The invariant is `Lined`: a text written after a flag has each of its block
tags where the flag and the text before it say that a line starts. It passes from texts to their concatenation
(`Lined.append`), whatever tag the end of the first may leave unfinished, and to what trimming leaves of an
item's body, because a tag there is finished (`Lined.of_append_blank`).
-/

namespace CommonMark.Html

/-! ## Block tags -/

/-- The tags of blocks, between their angle brackets; headers and lists that start with a number apart. -/
def blockTags : List Text :=
  ["p", "blockquote", "/blockquote", "ul", "/ul", "ol", "/ol", "li", "pre", "hr /"].map String.toList

/-- Whether what stands between angle brackets is the opening tag of a header. -/
def isHeaderTag : Text → Bool
  | 'h' :: d :: ds => (d :: ds).all Char.isDigit
  | _ => false

/-- Whether what stands between angle brackets is a tag of a block. -/
def isBlockTag (body : Text) : Bool :=
  blockTags.contains body || "ol ".toList.isPrefixOf body || isHeaderTag body

/-- Whether a tag of a block starts a text. -/
def startsBlockTag : Text → Bool
  | '<' :: t => isBlockTag (t.takeWhile (· ≠ '>')) && t.contains '>'
  | _ => false

example : ["<p>a", "<ol start=\"7\">", "<h12>", "<hr />"].map (fun s => startsBlockTag s.toList) =
    [true, true, true, true] := by decide

example : ["</p>", "<a href=\"<p>\">", "<h>", "<pre"].map (fun s => startsBlockTag s.toList) =
    [false, false, false, false] := by decide

theorem startsBlockTag_of_ne {c : Char} (h : c ≠ '<') (t : Text) : startsBlockTag (c :: t) = false := by
  unfold startsBlockTag
  split
  · rename_i heq
    exact absurd (List.cons.inj heq).1 h
  · rfl

/-- Once a tag is finished, what follows it does not count. -/
theorem startsBlockTag_append {t : Text} (h : '>' ∈ t) (rest : Text) :
    startsBlockTag ('<' :: t ++ rest) = startsBlockTag ('<' :: t) := by
  have htake : (t ++ rest).takeWhile (· ≠ '>') = t.takeWhile (· ≠ '>') := by
    induction t with
    | nil => cases h
    | cons c t ih =>
      by_cases hc : c = '>'
      · simp [hc]
      · have ht : '>' ∈ t := (List.mem_cons.1 h).resolve_left fun heq => hc heq.symm
        simp only [List.cons_append, List.takeWhile_cons, ne_eq, hc, not_false_eq_true, decide_true, ite_true]
        exact congrArg (c :: ·) (ih ht)
  have hcontains : (t ++ rest).contains '>' = t.contains '>' := by simp [h]
  show (isBlockTag ((t ++ rest).takeWhile (· ≠ '>')) && (t ++ rest).contains '>') = _
  rw [htake, hcontains]
  rfl

/-! ## Texts with their block tags at the start of lines -/

/-- Whether the tags of blocks in a text stand at the start of lines, when `atLineStart` says whether the text
itself does. A tag counts that the text only begins and what follows may finish. -/
def Lined : Bool → Text → Prop
  | _, [] => True
  | atLineStart, c :: t =>
    ((∃ rest, startsBlockTag (c :: t ++ rest) = true) → atLineStart = true) ∧ Lined (c = '\n') t

/-- Whether each left bracket has a right bracket after it. -/
def Closed : Text → Prop
  | [] => True
  | c :: t => (c = '<' → '>' ∈ t) ∧ Closed t

namespace Lined

variable {flag : Bool}

/-- A text without left brackets. -/
theorem plain {t : Text} (h : '<' ∉ t) : Lined flag t := by
  induction t generalizing flag with
  | nil => trivial
  | cons c t ih =>
    have hc : c ≠ '<' := fun heq => h (heq ▸ List.mem_cons_self)
    refine ⟨?_, ih fun hmem => h (List.mem_cons_of_mem _ hmem)⟩
    rintro ⟨rest, hrest⟩
    rw [List.cons_append, startsBlockTag_of_ne hc] at hrest
    cases hrest

/-- The tag of a block, at the start of a line. -/
theorem block {t : Text} (h : '<' ∉ t) : Lined true ('<' :: t) :=
  ⟨fun _ => rfl, plain h⟩

/-- Another tag, or the beginning of one. -/
theorem inline {t : Text} (h : '<' ∉ t) (hno : ∀ rest, startsBlockTag ('<' :: t ++ rest) = false) :
    Lined flag ('<' :: t) := by
  refine ⟨?_, plain h⟩
  rintro ⟨rest, hrest⟩
  rw [hno rest] at hrest
  cases hrest

theorem append {s t : Text} (hs : Lined flag s) (ht : Lined (endsLine flag s) t) : Lined flag (s ++ t) := by
  induction s generalizing flag with
  | nil => exact ht
  | cons c s ih =>
    refine ⟨?_, ih hs.2 (endsLine_cons flag c s ▸ ht)⟩
    rintro ⟨rest, hrest⟩
    -- what follows the first text is any text, so `t` with what follows it is
    refine hs.1 ⟨t ++ rest, ?_⟩
    rw [← List.append_assoc]
    exact hrest

/-- Cutting off white space at the end cuts no tag. -/
theorem of_append_blank {s u : Text} (h : Lined flag (s ++ u)) (hclosed : Closed (s ++ u)) (hu : '>' ∉ u) :
    Lined flag s := by
  induction s generalizing flag with
  | nil => trivial
  | cons c s ih =>
    refine ⟨?_, ih h.2 hclosed.2⟩
    rintro ⟨rest, hrest⟩
    by_cases hc : c = '<'
    · subst hc
      have hmem : '>' ∈ s := (List.mem_append.1 (hclosed.1 rfl)).resolve_right hu
      have hwhole : startsBlockTag ('<' :: s ++ u) = startsBlockTag ('<' :: s) := startsBlockTag_append hmem u
      rw [startsBlockTag_append hmem, ← hwhole] at hrest
      exact h.1 ⟨[], by rw [List.append_nil]; exact hrest⟩
    · rw [List.cons_append, startsBlockTag_of_ne hc] at hrest
      cases hrest

/-- Where a block tag starts, a line does. -/
theorem endsLine_of_startsBlockTag {before after : Text} (h : Lined flag (before ++ after))
    (htag : startsBlockTag after = true) : endsLine flag before = true := by
  induction before generalizing flag with
  | nil =>
    cases after with
    | nil => cases htag
    | cons c t => exact h.1 ⟨[], by simpa using htag⟩
  | cons c before ih =>
    rw [endsLine_cons]
    exact ih h.2

end Lined

/-! ## Finished tags -/

namespace Closed

theorem plain {t : Text} (h : '<' ∉ t) : Closed t := by
  induction t with
  | nil => trivial
  | cons c t ih =>
    refine ⟨fun heq => absurd (heq ▸ List.mem_cons_self) h, ih fun hmem => h (List.mem_cons_of_mem _ hmem)⟩

theorem append {s t : Text} (hs : Closed s) (ht : Closed t) : Closed (s ++ t) := by
  induction s with
  | nil => exact ht
  | cons c s ih => exact ⟨fun hc => List.mem_append_left t (hs.1 hc), ih hs.2⟩

theorem of_last (t : Text) : Closed (t ++ ['>']) := by
  induction t with
  | nil => exact ⟨fun h => absurd h (by decide), trivial⟩
  | cons c t ih => exact ⟨fun _ => by simp, ih⟩

theorem atom (a : Atom) : Closed a.write := by
  cases a with
  | char c => exact plain (not_mem_escapeChar c)
  | mark m => exact of_last ('<' :: m.body)

/-- What spells characters and tags has no tag unfinished. -/
theorem of_spells {t : Text} {as : List Atom} (h : Spells t as) : Closed t := by
  obtain ⟨bs, rfl, hb⟩ := h
  clear hb
  induction bs with
  | nil => trivial
  | cons b bs ih =>
    rw [List.flatMap_cons]
    exact (atom b).append ih

end Closed

/-! ## Steps -/

theorem not_mem_of_isQuotable {t : Text} (h : Mark.isQuotable t = true) : '<' ∉ t :=
  Text.not_mem_of_isFreeOf (by decide) h

/-- Whether steps write block tags at the start of lines only, wherever the sink stands. -/
def Aligned (ss : List Step) : Prop := ∀ flag, Lined flag (transcript flag ss)

namespace Aligned

theorem nil : Aligned [] := fun _ => trivial

theorem append {ss ss' : List Step} (h : Aligned ss) (h' : Aligned ss') : Aligned (ss ++ ss') := by
  intro flag
  rw [transcript_append]
  exact (h flag).append (h' _)

theorem newline : Aligned [.newline] := by
  intro flag
  have hline : Lined flag ['\n'] := .plain (by decide)
  exact hline

/-- A text that is right wherever it stands. -/
theorem text {t : Text} (h : ∀ flag, Lined flag t) : Aligned [.text t] := by
  intro flag
  simpa only [transcript, Step.output, List.append_nil] using h flag

/-- Markup without a left bracket. -/
theorem plain {s : String} (h : '<' ∉ s.toList) : Aligned [markup s] := text fun _ => .plain h

/-- Markup that is a tag, or the beginning of one, but not of a block. -/
theorem tag {s : String} {t : Text} (hs : s.toList = '<' :: t) (h : '<' ∉ t)
    (hno : ∀ rest, startsBlockTag ('<' :: t ++ rest) = false) : Aligned [markup s] := by
  refine text fun flag => ?_
  rw [hs]
  exact .inline h hno

/-- Steps between two tags. -/
theorem between {s s' : Step} {body : List Step} (h : Aligned [s]) (hb : Aligned body) (h' : Aligned [s']) :
    Aligned (s :: body ++ [s']) := (h.append hb).append h'

/-- A text that has to stand at the start of a line. -/
theorem freshLine {t : Text} (h : Lined true t) : Aligned [.freshLine, .text t] := by
  intro flag
  cases flag with
  | true =>
    show Lined true (t ++ [])
    rw [List.append_nil]
    exact h
  | false =>
    show Lined false (['\n'] ++ (t ++ []))
    rw [List.append_nil]
    exact Lined.append (.plain (by decide)) h

/-- Steps that write a text without left brackets. -/
theorem texts {ss : List Step} (hall : ss.all Step.isText = true) (h : '<' ∉ ss.flatMap (Step.output true)) :
    Aligned ss := by
  intro flag
  rw [transcript_of_isText hall]
  exact .plain h

section

variable (probe : Probe)

theorem literal (l : Literal) : Aligned (textSteps probe l) := by
  intro flag
  rw [textSteps, transcript_map_text]
  exact .plain (not_mem_of_isQuotable (isQuotable_escapeLiteral false probe l))

theorem value (t : Text) : Aligned (valueSteps probe t) := by
  refine texts (all_isText_valueSteps probe t) ?_
  rw [flatMap_output_valueSteps]
  exact not_mem_of_isQuotable (isQuotable_escapeText true probe t)

theorem title (target : Target) : Aligned (titleSteps probe target) := by
  unfold titleSteps
  split
  · exact nil
  · exact nil
  · have hopen : Aligned [markup " title=\""] := plain (by decide)
    exact (hopen.append (value probe _)).append (plain (by decide))

end

end Aligned

/-! ## Trees -/

mutual

theorem aligned_inline (probe : Probe) : ∀ i : Inline, i.isTidy ['<'] = true → Aligned (inlineSteps probe i)
  | .text l, _ => .literal probe l
  | .lineBreak, _ => by
    have hbreak : Aligned [markup "<br />"] := .tag rfl (by decide) fun _ => rfl
    exact hbreak.append .newline
  | .softBreak, _ => .newline
  | .code l, _ => by
    rw [inlineSteps]
    exact .between (.tag rfl (by decide) fun _ => rfl) (.literal probe l) (.tag rfl (by decide) fun _ => rfl)
  | .rawHtml _, h => nomatch h
  | .entity _, h => nomatch h
  | .link target label, h => by
    have hopen : Aligned [markup "<a href=\""] := .tag rfl (by decide) fun _ => rfl
    have hquote : Aligned [markup "\""] := .plain (by decide)
    have hend : Aligned [markup ">"] := .plain (by decide)
    have hclose : Aligned [markup "</a>"] := .tag rfl (by decide) fun _ => rfl
    have htag := (((hopen.append (.value probe target.url)).append hquote).append (.title probe target)).append hend
    exact (htag.append (aligned_inlines probe label h)).append hclose
  | .image target label, h => by
    have hopen : Aligned [markup "<img src=\""] := .tag rfl (by decide) fun _ => rfl
    have halt : Aligned [markup "\" alt=\""] := .plain (by decide)
    -- HTML in the label is escaped, and a quote that ends the value too early starts no tag
    have hlabel : Aligned [.text (altTexts probe label)] :=
      .text fun _ => .plain (Text.not_mem_of_isFreeOf (by decide) (isFreeOf_altTexts probe (by decide) label h))
    have hquote : Aligned [markup "\""] := .plain (by decide)
    have hend : Aligned [markup " />"] := .plain (by decide)
    have htag := (hopen.append (.value probe target.url)).append ((halt.append hlabel).append hquote)
    exact (htag.append (.title probe target)).append hend
  | .strong is, h => by
    rw [inlineSteps]
    exact .between (.tag rfl (by decide) fun _ => rfl) (aligned_inlines probe is h) (.tag rfl (by decide) fun _ => rfl)
  | .emphasis is, h => by
    rw [inlineSteps]
    exact .between (.tag rfl (by decide) fun _ => rfl) (aligned_inlines probe is h) (.tag rfl (by decide) fun _ => rfl)

theorem aligned_inlines (probe : Probe) : ∀ is : List Inline, Inline.areTidy ['<'] is = true →
    Aligned (inlinesSteps probe is)
  | [], _ => .nil
  | i :: is, h => by
    simp only [Inline.areTidy, Bool.and_eq_true] at h
    exact (aligned_inline probe i h.1).append (aligned_inlines probe is h.2)

end

/-- A tag of a block on a line of its own. -/
theorem Aligned.line {t : Text} (h : '<' ∉ t) : Aligned [.freshLine, .text ('<' :: t), .newline] :=
  Aligned.append (.freshLine (.block h)) .newline

/-- A number has no left bracket in it. -/
theorem not_mem_numbered (n : Nat) {s t : Text} (hs : '<' ∉ s) (ht : '<' ∉ t) : '<' ∉ s ++ (toString n).toList ++ t := by
  intro hmem
  rcases List.mem_append.1 hmem with hmem | hmem
  · rcases List.mem_append.1 hmem with hmem | hmem
    · exact hs hmem
    · exact not_mem_of_isQuotable (isQuotable_toString n) hmem
  · exact ht hmem

theorem aligned_header (level : Nat) {body : List Step} (h : Aligned body) :
    Aligned ([.freshLine, headerTag "<h" level] ++ body ++ [headerTag "</h" level, .newline]) := by
  have hin : '<' ∉ ['h'] ++ (toString level).toList ++ ['>'] := not_mem_numbered level (by decide) (by decide)
  have hin' : '<' ∉ ['/', 'h'] ++ (toString level).toList ++ ['>'] := not_mem_numbered level (by decide) (by decide)
  have hopen : Aligned [.freshLine, headerTag "<h" level] := .freshLine (.block hin)
  have hclose : Aligned [headerTag "</h" level] := .text fun _ => .inline hin' fun _ => rfl
  exact (hopen.append h).append (hclose.append .newline)

theorem aligned_list (style : ListStyle) {body : List Step} (h : Aligned body) :
    Aligned ([.freshLine, listOpening style, .newline] ++ body ++ [.freshLine, listClosing style, .newline]) := by
  cases style with
  | bullet marker => exact (Aligned.append (.line (by decide)) h).append (.line (by decide))
  | ordered start delimiter =>
    have hopen : Aligned [.freshLine, listOpening (.ordered start delimiter), .newline] := by
      unfold listOpening
      by_cases hs : start = 1
      · simp only [hs, ite_true]
        exact .line (by decide)
      · simp only [hs, ite_false]
        have hin : '<' ∉ "ol start=\"".toList ++ (toString start).toList ++ "\">".toList :=
          not_mem_numbered start (by decide) (by decide)
        exact .line hin
    exact (hopen.append h).append (.line (by decide))

/-- The body of an item is aligned apart, after a tag, and stays so without the white space at its end. -/
theorem aligned_item {ss : List Step} {as : List Atom} (h : Aligned ss) (hw : Writes ss as) :
    Aligned (itemSteps (transcript false ss)) := by
  have hkept : Lined false (transcript false ss).trimEnd := by
    obtain ⟨tail, hsplit, hblank⟩ := Text.trimEnd_append_blank (transcript false ss)
    have hlined := h false
    have hclosed := Closed.of_spells (hw false)
    rw [hsplit] at hlined hclosed
    refine hlined.of_append_blank hclosed fun hmem => ?_
    exact absurd (hblank _ hmem) (by decide)
  have hbody : Aligned [.freshLine, markup "<li>", .text (transcript false ss).trimEnd] := by
    have hopen : Lined true ("<li>".toList ++ (transcript false ss).trimEnd) := Lined.append (.block (by decide)) hkept
    intro flag
    have hone := Aligned.freshLine hopen flag
    cases flag <;> simpa only [transcript, Step.output, markup, List.append_assoc] using hone
  have hend : ∀ (p : Prop) [Decidable p], Aligned (if p then [.newline] else []) := by
    intro p _
    split
    · exact .newline
    · exact .nil
  have hclose : Aligned [markup "</li>"] := .tag rfl (by decide) fun _ => rfl
  exact (hbody.append (hend _)).append (hclose.append .newline)

theorem aligned_code (probe : Probe) (l : Option Literal) {ss : List Step} (h : Aligned ss) :
    Aligned (ss ++ codeBody probe l) := by
  have hbody : Aligned (l.elim [] (textSteps probe)) := by
    cases l with
    | none => exact .nil
    | some l => exact .literal probe l
  have hclose : Aligned [markup "</code></pre>"] := by
    refine .text fun flag => ?_
    have hcode : Lined flag "</code>".toList := .inline (by decide) fun _ => rfl
    exact hcode.append (t := "</pre>".toList) (.inline (by decide) fun _ => rfl)
  exact h.append (hbody.append (hclose.append .newline))

/-- The two tags that open a code block stand in one line. -/
theorem lined_codeOpening : Lined true "<pre><code".toList := by
  have hpre : Lined true "<pre>".toList := .block (by decide)
  exact hpre.append (t := "<code".toList) (.inline (by decide) fun _ => rfl)

theorem aligned_language (probe : Probe) (info : Text) :
    Aligned (match info.firstWord? with
      | none => []
      | some language => markup " class=\"language-" :: valueSteps probe language ++ [markup "\""]) := by
  split
  · exact .nil
  · have hopen : Aligned [markup " class=\"language-"] := .plain (s := " class=\"language-") (by simp)
    have hquote : Aligned [markup "\""] := .plain (by decide)
    exact hopen.between (.value probe _) hquote

mutual

/-- **The steps of a tidy block are aligned.** -/
theorem aligned_block (probe : Probe) : ∀ (tight : Bool) (b : Block), b.isTidy ['<'] = true →
    Aligned (blockSteps probe tight b)
  | tight, ⟨kind, literal, children, inlines⟩, h => by
    simp only [Block.isTidy, Bool.and_eq_true, decide_eq_true_eq] at h
    obtain ⟨⟨hk, hc⟩, hi⟩ := h
    have hblocks := fun t => aligned_blocks probe t children hc
    have hinlines := aligned_inlines probe inlines hi
    cases kind with
    | document => exact hblocks false
    | paragraph =>
      cases tight with
      | true => exact hinlines
      | false =>
        have hopen : Aligned [.freshLine, markup "<p>"] := .freshLine (.block (by decide))
        have hclose : Aligned [markup "</p>"] := .tag rfl (by decide) fun _ => rfl
        exact (hopen.append hinlines).append (hclose.append .newline)
    | blockQuote => exact (Aligned.append (.line (by decide)) (hblocks false)).append (.line (by decide))
    | list style t => exact aligned_list style (hblocks t)
    | listItem => exact aligned_item (hblocks tight) (writes_blocks ['<'] probe tight children hc)
    | atxHeader level => exact aligned_header level hinlines
    | setextHeader level => exact aligned_header level hinlines
    | indentedCode =>
      have hopen : Lined true "<pre><code>".toList := lined_codeOpening.append (t := ['>']) (.plain (by decide))
      exact aligned_code probe literal (.freshLine hopen)
    | fencedCode info =>
      have hopen : Aligned [.freshLine, markup "<pre><code"] := .freshLine lined_codeOpening
      have hend : Aligned [markup ">"] := .plain (by decide)
      exact aligned_code probe literal ((hopen.append (aligned_language probe info)).append hend)
    | htmlBlock => exact absurd rfl hk
    | horizontalRuler => exact .line (by decide)
    | referenceDefinition label => exact .nil

theorem aligned_blocks (probe : Probe) : ∀ (tight : Bool) (bs : List Block), Block.areTidy ['<'] bs = true →
    Aligned (blocksSteps probe tight bs)
  | _, [], _ => .nil
  | tight, b :: bs, h => by
    simp only [Block.areTidy, Bool.and_eq_true] at h
    exact (aligned_block probe tight b h.1).append (aligned_blocks probe tight bs h.2)

end

/-- **No block tag starts in the middle of a line**: rendering a tidy tree, with no left bracket in the references of its
labels, into an empty buffer succeeds, and wherever a tag of a block starts in the output, the output starts there or a
line does. -/
theorem startsLine_of_startsBlockTag (probe : Probe) (tight : Bool) (root : Block) (h : root.isTidy ['<'] = true) :
    ∃ w : Writer Buffer, render probe tight root ⟨{}, true⟩ = (w, .ok ()) ∧
      ∀ before after : Text, w.sink.text = before ++ after → startsBlockTag after = true →
        before = [] ∨ before.getLast? = some '\n' := by
  refine ⟨_, render_of_no_limit probe tight root [] true, fun before after hsplit htag => ?_⟩
  rw [Buffer.text, List.append_nil, List.reverse_reverse] at hsplit
  have hlined := aligned_block probe tight root h true
  rw [hsplit] at hlined
  exact endsLine_true_iff.1 (hlined.endsLine_of_startsBlockTag htag)

theorem startsLine_of_startsBlockTag_nestedSample :
    nestedSample.isTidy ['<'] = true ∧ ∃ w : Writer Buffer,
      render .html5 false nestedSample ⟨{}, true⟩ = (w, .ok ()) ∧
        ∀ before after : Text, w.sink.text = before ++ after → startsBlockTag after = true →
          before = [] ∨ before.getLast? = some '\n' :=
  ⟨by decide, startsLine_of_startsBlockTag .html5 false nestedSample (by decide)⟩

/-- The bracket has to be barred: a tag that comes out of the label of an image stands in the middle of a line. -/
theorem not_startsLine_of_startsBlockTag_unquotedSample :
    unquotedSample.isTidy [] = true ∧ ∃ w : Writer Buffer,
      render .html5 false unquotedSample ⟨{}, true⟩ = (w, .ok ()) ∧
        ∃ before after : Text, w.sink.text = before ++ after ∧ startsBlockTag after = true ∧
          ¬ (before = [] ∨ before.getLast? = some '\n') := by
  obtain ⟨w, hw, ht⟩ := render_unquotedSample
  refine ⟨by decide, w, hw, "<p><img src=\"\" alt=\"\">".toList, "<p>x\" /></p>\n".toList, ht, by decide, by decide⟩

end CommonMark.Html
