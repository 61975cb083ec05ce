import CommonMark.Proofs.Html.Escaping
import CommonMark.Proofs.Segments
import CommonMark.Proofs.Reference

/-!
# Escaping segments and escaping their text

A literal is escaped segment by segment, and the probe sees no further than a segment's end. With references kept this
depends on the texts of the segments alone (`escapeLiteral_html5`): an ampersand stays when the text from there to the
end of its segment starts with a reference. So it makes no difference whether the segments are joined first, unless a
reference of the joined text goes over the end of a segment (`escapeLiteral_eq_escapeText`). And it makes no difference
what buffers the segments are windows of, or what stands there around them (`escapeLiteral_of_texts`).
-/

namespace CommonMark

open CharacterReference

namespace Html

/-! ## Keeping references -/

/-- A text escaped with its references kept: an ampersand stays when a reference starts there. -/
def escapeKeeping : Text → Text
  | [] => []
  | c :: t => replacement (read? (c :: t)).isSome c ++ escapeKeeping t

/-- The probe gives the length of the reference that starts a window. -/
theorem html5_of_slice? {buffer w : Text} {position remaining : Nat}
    (h : buffer.slice? position remaining = some w) :
    Probe.html5 buffer position remaining = (read? w).elim 0 (·.length) := by
  simp only [Probe.html5, h]

/-- What the probe is asked for inside a window is whether a reference starts what is left of the window. -/
theorem keepsAt_html5 {w : Segment} {u v : Text} (h : w.text = u ++ v) :
    keepsAt true .html5 w (w.start + u.bytes) = (read? v).isSome := by
  obtain ⟨before, after, hbuffer, hstart, hlength⟩ := Text.slice?_eq_some_iff.1 w.slice_eq
  have hrest : w.stop - (w.start + u.bytes) = v.bytes := by
    rw [h, Text.bytes_append] at hlength
    rw [Segment.stop]
    omega
  have hslice : w.buffer.slice? (w.start + u.bytes) v.bytes = some v := by
    refine Text.slice?_eq_some_iff.2 ⟨before ++ u, after, ?_, ?_, rfl⟩
    · rw [hbuffer, h]
      simp
    · rw [Text.bytes_append, hstart]
  rw [keepsAt, hrest, html5_of_slice? hslice]
  cases read? v with
  | none => rfl
  | some b => cases b <;> simp [Body.length]

/-- A window is escaped as its text is. -/
theorem escapeChars_html5 (w : Segment) :
    escapeChars (keepsAt true .html5 w) w.start w.text = escapeKeeping w.text := by
  have hrest : ∀ u v : Text, w.text = u ++ v →
      escapeChars (keepsAt true .html5 w) (w.start + u.bytes) v = escapeKeeping v := by
    intro u v h
    induction v generalizing u with
    | nil => rfl
    | cons c v ih =>
      have hnext := ih (u ++ [c]) (by simp [h])
      rw [Text.bytes_append, ← Nat.add_assoc, Text.bytes_cons, Text.bytes_nil, Nat.add_zero] at hnext
      rw [escapeChars, keepsAt_html5 h, hnext, escapeKeeping]
  exact hrest [] w.text rfl

/-- With references kept, only the texts of the segments count. -/
theorem escapeLiteral_html5 (l : Literal) :
    escapeLiteral true .html5 l = l.chunks.flatMap fun w => escapeKeeping w.text := by
  rw [escapeLiteral_eq]
  simp only [escapeChars_html5]

theorem escapeText_html5 (t : Text) : escapeText true .html5 t = escapeKeeping t := by
  rw [escapeText, escapeLiteral_html5, Literal.chunks, List.flatMap_singleton, Segment.text_whole]

/-- Texts that no reference goes over from one into the other are escaped one after the other. -/
theorem escapeKeeping_append {s t : Text}
    (h : ∀ v b, v <:+ s → v ≠ [] → read? (v ++ t) = some b → b.length ≤ Text.bytes v) :
    escapeKeeping (s ++ t) = escapeKeeping s ++ escapeKeeping t := by
  induction s with
  | nil => rfl
  | cons c s ih =>
    have hread : (read? (c :: s ++ t)).isSome = (read? (c :: s)).isSome := by
      rw [Bool.eq_iff_iff, Option.isSome_iff_exists, Option.isSome_iff_exists]
      constructor
      · rintro ⟨b, hb⟩
        exact ⟨b, read?_of_append hb (h _ b List.suffix_rfl (List.cons_ne_nil c s) hb)⟩
      · rintro ⟨b, hb⟩
        exact ⟨b, read?_append hb t⟩
    have hrest := ih fun v b hv => h v b (hv.trans (List.suffix_cons c s))
    rw [List.cons_append, escapeKeeping, hrest, ← List.cons_append, hread, escapeKeeping, List.append_assoc]

/-! ## Segments one after another -/

/-- The byte offsets at which segments end, of which the first starts at an offset. -/
def segmentEnds : Nat → List Segment → List Nat
  | _, [] => []
  | offset, w :: ws => (offset + w.length) :: segmentEnds (offset + w.length) ws

/-- Whether no reference that is recognised in the joined text of a literal goes over the end of a segment. -/
def IsUncut (l : Literal) : Prop :=
  ∀ cut ∈ segmentEnds 0 l.chunks, ∀ p < cut, p + Probe.html5 l.text p (l.text.bytes - p) ≤ cut

instance (l : Literal) : Decidable (IsUncut l) := by
  unfold IsUncut
  infer_instance

/-- **Segments are escaped as their joined text is** that no reference goes over their ends. -/
theorem escapeKeeping_flatMap (ws : List Segment) (before : Text)
    (h : ∀ cut ∈ segmentEnds before.bytes ws, ∀ p < cut,
      let t := before ++ ws.flatMap (·.text)
      p + Probe.html5 t p (t.bytes - p) ≤ cut) :
    escapeKeeping (ws.flatMap (·.text)) = ws.flatMap fun w => escapeKeeping w.text := by
  induction ws generalizing before with
  | nil => rfl
  | cons w ws ih =>
    have hlength : w.length = w.text.bytes := w.bytes_text.symm
    have hnext : escapeKeeping (ws.flatMap (·.text)) = ws.flatMap fun w => escapeKeeping w.text := by
      refine ih (before ++ w.text) fun cut hcut => ?_
      rw [Text.bytes_append, ← hlength] at hcut
      simpa using h cut (List.mem_cons_of_mem _ hcut)
    rw [List.flatMap_cons, List.flatMap_cons, ← hnext]
    refine escapeKeeping_append fun v b hsuffix hv hread => ?_
    -- the reference starts in this segment, so it ends there
    obtain ⟨u, hu⟩ := hsuffix
    have hpos : 0 < Text.bytes v := Nat.pos_of_ne_zero (mt Text.bytes_eq_zero.1 hv)
    have hw : w.length = Text.bytes u + Text.bytes v := by rw [hlength, ← hu, Text.bytes_append]
    have hslice : Text.slice? (Text.bytes (before ++ u)) (Text.bytes (v ++ ws.flatMap (·.text)))
        (before ++ (w :: ws).flatMap (·.text)) = some (v ++ ws.flatMap (·.text)) :=
      Text.slice?_eq_some_iff.2 ⟨before ++ u, [], by simp [← hu], rfl, rfl⟩
    have hremaining : Text.bytes (before ++ (w :: ws).flatMap (·.text)) - Text.bytes (before ++ u) =
        Text.bytes (v ++ ws.flatMap (·.text)) := by
      simp [← hu]
      omega
    have hcut := h (before.bytes + w.length) List.mem_cons_self (Text.bytes (before ++ u)) (by
      rw [Text.bytes_append]
      omega)
    simp only at hcut
    rw [hremaining, html5_of_slice? hslice, hread, Option.elim_some, Text.bytes_append] at hcut
    omega

/-- **Joining segments first makes no difference to escaping**: none at all when no reference is kept, whatever the
probe is, and none when the references of HTML are kept and none of the joined text goes over the end of a segment. -/
theorem escapeLiteral_eq_escapeText (l : Literal) :
    (∀ probe, escapeLiteral false probe l = escapeText false probe l.text) ∧
    (IsUncut l → escapeLiteral true .html5 l = escapeText true .html5 l.text) := by
  constructor
  · intro probe
    rw [escapeText, escapeLiteral_never, escapeLiteral_never]
    rfl
  · intro h
    rw [escapeLiteral_html5, escapeText_html5, ← Literal.flatMap_chunks]
    rw [IsUncut, ← Literal.flatMap_chunks] at h
    exact (escapeKeeping_flatMap l.chunks [] h).symm

/-- A window that cuts a reference of its buffer short, a window of another buffer, and an overlapping one of the first:
the first ampersand is escaped, as it is in the joined text, and the reference after it stays. -/
theorem escapeLiteral_eq_escapeText_windows :
    let buffer := "&#38;&#60;".toList
    let l : Literal := .segmented ⟨[⟨buffer, 0, 4, "&#38".toList, by decide⟩, .whole "x".toList,
      ⟨buffer, 5, 5, "&#60;".toList, by decide⟩, ⟨buffer, 3, 3, "8;&".toList, by decide⟩]⟩
    IsUncut l ∧ escapeLiteral true .html5 l = "&amp;#38x&#60;8;&amp;".toList := by
  intro buffer l
  have huncut : IsUncut l := by decide
  refine ⟨huncut, ((escapeLiteral_eq_escapeText l).2 huncut).trans ?_⟩
  rw [escapeText_html5]
  decide

/-! ## Windows of other buffers -/

/-- A window is written in the pieces that its text alone is written in. -/
theorem pieces_html5 (preserve : Bool) (w : Segment) :
    pieces (keepsAt preserve .html5 w) w.start w.text = literalPieces preserve .html5 (.plain w.text) := by
  rw [literalPieces, Literal.chunks, List.flatMap_singleton]
  cases preserve with
  | false =>
    rw [keepsAt_never, keepsAt_never]
    exact pieces_congr fun _ _ _ => rfl
  | true => exact pieces_congr fun u v h => by rw [keepsAt_html5 h, keepsAt_html5 (w := .whole w.text) h]

theorem literalPieces_html5 (preserve : Bool) (l : Literal) :
    literalPieces preserve .html5 l = l.chunks.flatMap fun w => literalPieces preserve .html5 (.plain w.text) := by
  rw [literalPieces]
  simp only [pieces_html5]

/-- **What stands around the windows of a literal plays no part in escaping it.** Two segmented literals whose segments
show the same texts, whatever buffers they are windows of and wherever, are written in the same pieces: those of each
segment's text on its own. -/
theorem escapeLiteral_of_texts (preserve : Bool) (c d : Content)
    (h : c.segments.map (·.text) = d.segments.map (·.text)) :
    literalPieces preserve .html5 (.segmented c) = literalPieces preserve .html5 (.segmented d) ∧
    escapeLiteral preserve .html5 (.segmented c) = escapeLiteral preserve .html5 (.segmented d) ∧
    escapeLiteral preserve .html5 (.segmented c) = c.segments.flatMap fun w => escapeText preserve .html5 w.text := by
  have hpieces : ∀ e : Content, literalPieces preserve .html5 (.segmented e) =
      (e.segments.map (·.text)).flatMap fun t => literalPieces preserve .html5 (.plain t) := by
    intro e
    rw [literalPieces_html5, List.flatMap_map]
    rfl
  have hsame : literalPieces preserve .html5 (.segmented c) = literalPieces preserve .html5 (.segmented d) := by
    rw [hpieces, hpieces, h]
  refine ⟨hsame, congrArg List.flatten hsame, ?_⟩
  rw [escapeLiteral, literalPieces_html5, List.flatMap_def, List.flatten_flatten, List.map_map, List.flatMap_def]
  rfl

/-- The first window ends before the digit and the semicolon that would make a reference of it; on its own it is escaped
alike. -/
theorem escapeLiteral_of_texts_cutReference :
    let c : Content := ⟨[⟨"x&#38;".toList, 1, 3, "&#3".toList, by decide⟩, .whole "&#60;".toList]⟩
    let d : Content := ⟨[.whole "&#3".toList, ⟨"<&#60;>".toList, 1, 5, "&#60;".toList, by decide⟩]⟩
    c.segments.map (·.text) = d.segments.map (·.text) ∧
      escapeLiteral true .html5 (.segmented c) = escapeLiteral true .html5 (.segmented d) ∧
      escapeLiteral true .html5 (.segmented d) = "&amp;#3&#60;".toList := by
  intro c d
  have htexts : c.segments.map (·.text) = d.segments.map (·.text) := by decide
  obtain ⟨-, hsame, hjoined⟩ := escapeLiteral_of_texts true c d htexts
  refine ⟨htexts, hsame, hsame.symm.trans (hjoined.trans ?_)⟩
  simp only [escapeText_html5]
  decide

end Html

end CommonMark
