import CommonMark.Proofs.Segments

/-!
# Segments that share the source

The text of an event is looked for in the span that it is reported with. A text that is not empty is found there just
when the span can be read and the text is part of what it shows, and then at the first place from the start of the span
on (`Builder.isFirstIn_of_shared?`); it becomes a window of the source. Every other text gets a buffer of its own. Spans
may lie anywhere: offsets are words of 64 bits, and no sum that is made of them wraps around (`segmentOfWords?_eq`).
-/

namespace CommonMark

/-! ## The first place of a text -/

namespace Text

/-- No place of a text comes before the one that is found. -/
theorem find?_le {part t before after : Text} {n : Nat} (h : find? part t = some n)
    (hplace : t = before ++ part ++ after) : n ≤ before.bytes := by
  induction t generalizing n before with
  | nil =>
    rw [find?] at h
    split at h
    · cases h
      exact Nat.zero_le _
    · cases h
  | cons c t ih =>
    rw [find?] at h
    split at h
    · cases h
      exact Nat.zero_le _
    · rename_i hpart
      obtain ⟨m, hm, rfl⟩ := Option.map_eq_some_iff.1 h
      cases before with
      | nil => exact absurd (List.isPrefixOf_iff_prefix.2 ⟨after, hplace.symm⟩) hpart
      | cons d before =>
        obtain ⟨rfl, hrest⟩ := List.cons.inj hplace
        have hle := ih hm hrest
        rw [bytes_cons]
        omega

theorem find?_eq_none_iff {part t : Text} : find? part t = none ↔ ¬ part <:+: t := by
  induction t with
  | nil => simp [find?]
  | cons c t ih =>
    rw [find?, List.infix_cons_iff]
    by_cases hpart : part.isPrefixOf (c :: t) = true
    · simp [hpart, List.isPrefixOf_iff_prefix.1 hpart]
    · have hprefix : ¬ part <+: c :: t := fun h => hpart (List.isPrefixOf_iff_prefix.2 h)
      simp [hpart, hprefix, ih]

/-- A part of a text that starts and ends within another part is a part of that one. -/
theorem split_of_bytes_le {before w after before' part after' : Text}
    (h : before ++ w ++ after = before' ++ part ++ after') (hstart : before.bytes ≤ before'.bytes)
    (hstop : (before' ++ part).bytes ≤ (before ++ w).bytes) : ∃ u v, before' = before ++ u ∧ w = u ++ part ++ v := by
  have hprefix : before ++ w <+: before ++ w ++ after := List.prefix_append _ after
  have hprefix' : before' ++ part <+: before ++ w ++ after := h ▸ List.prefix_append _ after'
  obtain ⟨u, rfl⟩ : before <+: before' :=
    prefix_of_bytes_le ((List.prefix_append before w).trans hprefix)
      ((List.prefix_append before' part).trans hprefix') hstart
  obtain ⟨v, hv⟩ : before ++ u ++ part <+: before ++ w := prefix_of_bytes_le hprefix' hprefix hstop
  refine ⟨u, v, rfl, ?_⟩
  rw [List.append_assoc, List.append_assoc] at hv
  rw [List.append_assoc]
  exact (List.append_cancel_left hv).symm

theorem find?_self (t : Text) : find? t t = some 0 := by
  cases t with
  | nil => rfl
  | cons c t => rw [find?, if_pos (List.isPrefixOf_iff_prefix.2 List.prefix_rfl)]

end Text

/-! ## Spans -/

namespace Span

/-- Whether a span can be read in a source and a text is part of what it shows. -/
def Holds (span : Span) (source t : Text) : Prop :=
  ∃ before w after, source = before ++ w ++ after ∧ before.bytes = span.start ∧ (before ++ w).bytes = span.stop ∧
    t <:+: w

theorem read?_eq_some_iff {span : Span} {source w : Text} :
    span.read? source = some w ↔
      ∃ before after, source = before ++ w ++ after ∧ before.bytes = span.start ∧ (before ++ w).bytes = span.stop := by
  unfold read?
  constructor
  · intro h
    split at h
    · obtain ⟨before, after, hsource, hstart, hlength⟩ := Text.slice?_eq_some_iff.1 h
      refine ⟨before, after, hsource, hstart, ?_⟩
      rw [Text.bytes_append]
      omega
    · cases h
  · rintro ⟨before, after, hsource, hstart, hstop⟩
    rw [Text.bytes_append] at hstop
    rw [if_pos (by omega)]
    exact Text.slice?_eq_some_iff.2 ⟨before, after, hsource, hstart, by omega⟩

theorem holds_iff {span : Span} {source t : Text} :
    span.Holds source t ↔ ∃ w, span.read? source = some w ∧ t <:+: w := by
  constructor
  · rintro ⟨before, w, after, hsource, hstart, hstop, hpart⟩
    exact ⟨w, read?_eq_some_iff.2 ⟨before, after, hsource, hstart, hstop⟩, hpart⟩
  · rintro ⟨w, hread, hpart⟩
    obtain ⟨before, after, hsource, hstart, hstop⟩ := read?_eq_some_iff.1 hread
    exact ⟨before, w, after, hsource, hstart, hstop, hpart⟩

end Span

/-- Whether a segment is the window of a source at the first place where a text stands from the start of a span on, and
ends in the span. -/
structure Segment.IsFirstIn (s : Segment) (source t : Text) (span : Span) : Prop where
  buffer : s.buffer = source
  text : s.text = t
  start : span.start ≤ s.start
  stop : s.stop ≤ span.stop
  first : ∀ n, span.start ≤ n → source.slice? n t.bytes = some t → s.start ≤ n

/-! ## Windows of the source -/

namespace Builder

/-- The window of the source that a text becomes, unless it gets a buffer of its own. -/
def shared? (b : Builder) (t : Text) (span : Span) : Option Segment :=
  (b.offset? t span).bind fun start => (Segment.ofWindow b.source start t.bytes).toOption

theorem segment_eq_getD (b : Builder) (t : Text) (span : Span) :
    b.segment t span = (b.shared? t span).getD (.whole t) := by
  rw [segment, shared?]
  cases b.offset? t span with
  | none => rfl
  | some start =>
    cases hs : Segment.ofWindow b.source start t.bytes with
    | error e => simp [hs, Except.toOption]
    | ok s => simp [hs, Except.toOption]

variable {b : Builder} {t : Text} {span : Span}

/-- A text that is not empty is looked for in what the span shows, which is nothing when the span cannot be read. -/
theorem offset?_eq (ht : t ≠ []) :
    b.offset? t span = (Text.find? t (b.sourceText span)).map (span.start + ·) := by
  by_cases hwhole : b.sourceText span = t
  · rw [offset?, if_pos hwhole, hwhole, Text.find?_self]
    rfl
  · rw [offset?, if_neg hwhole, if_neg (by simpa using ht)]

theorem offset?_of_not_holds (ht : t ≠ []) (h : ¬ span.Holds b.source t) : b.offset? t span = none := by
  rw [offset?_eq ht, Option.map_eq_none_iff, Text.find?_eq_none_iff, sourceText]
  cases hread : span.read? b.source with
  | none => simpa using ht
  | some w => exact fun hpart => h (Span.holds_iff.2 ⟨w, hread, hpart⟩)

/-- The offset found for a text in a span is the first at which the text stands, and the text ends in the span. -/
theorem offset?_of_holds (ht : t ≠ []) (h : span.Holds b.source t) :
    ∃ m, b.offset? t span = some m ∧ span.start ≤ m ∧ m + t.bytes ≤ span.stop ∧
      b.source.slice? m t.bytes = some t ∧ ∀ n, span.start ≤ n → b.source.slice? n t.bytes = some t → m ≤ n := by
  obtain ⟨before, w, after, hsource, hstart, hstop, hpart⟩ := h
  have hread := Span.read?_eq_some_iff.2 ⟨before, after, hsource, hstart, hstop⟩
  obtain ⟨k, hk⟩ : ∃ k, Text.find? t w = some k :=
    Option.ne_none_iff_exists'.1 fun hnone => Text.find?_eq_none_iff.1 hnone hpart
  obtain ⟨u, v, hw, hu⟩ := Text.of_find?_eq_some hk
  have hfits : k + t.bytes ≤ w.bytes := by
    rw [hw, Text.bytes_append, Text.bytes_append, hu]
    omega
  rw [Text.bytes_append] at hstop
  refine ⟨span.start + k, ?_, Nat.le_add_right .., by omega, ?_, fun n hle hn => ?_⟩
  · rw [offset?_eq ht, sourceText, hread, Option.getD_some, hk, Option.map_some]
  · refine Text.slice?_eq_some_iff.2 ⟨before ++ u, v ++ after, ?_, ?_, rfl⟩
    · rw [hsource, hw]
      simp
    · rw [Text.bytes_append, hstart, hu]
  · obtain ⟨before', after', hsource', hbytes, -⟩ := Text.slice?_eq_some_iff.1 hn
    by_cases hin : n + t.bytes ≤ span.stop
    · -- The place lies in the span, so it is one in what the span shows.
      have hends : (before' ++ t).bytes ≤ (before ++ w).bytes := by
        rw [Text.bytes_append, Text.bytes_append]
        omega
      obtain ⟨u', v', rfl, hplace⟩ :=
        Text.split_of_bytes_le (hsource.symm.trans hsource') (by omega) hends
      have hfirst := Text.find?_le hk hplace
      rw [Text.bytes_append] at hbytes
      omega
    · omega

/-- **A text that stands in its span shares the source there**, at its first place. -/
theorem isFirstIn_of_shared? (ht : t ≠ []) (h : span.Holds b.source t) :
    ∃ s, b.shared? t span = some s ∧ s.IsFirstIn b.source t span := by
  obtain ⟨m, hm, hstart, hstop, hslice, hfirst⟩ := offset?_of_holds ht h
  have hends := Text.isSome_slice?_iff.1 (Option.isSome_of_eq_some hslice)
  rcases Segment.ofWindow_cases b.source m t.bytes with
    ⟨hout, -⟩ | ⟨-, hcut, -⟩ | ⟨-, -, hcut, -⟩ | ⟨-, -, -, s, hs, hcovers⟩
  · have hle := Text.le_bytes_of_isBoundary hends.2
    omega
  · rw [hends.1] at hcut
    cases hcut
  · rw [hends.2] at hcut
    cases hcut
  · have htext : s.text = t := Option.some.inj ((Segment.slice?_of_ofWindow hs).symm.trans hslice)
    refine ⟨s, by rw [shared?, hm, Option.bind_some, hs]; rfl, hcovers.buffer, htext, ?_, ?_, ?_⟩
    · rw [hcovers.start]
      exact hstart
    · rw [Segment.stop, hcovers.start, hcovers.length]
      exact hstop
    · rw [hcovers.start]
      exact hfirst

/-! ## Offsets that are words -/

/-- What `offset?` gives, with the ends of the span as words; nothing, if a sum of two words wraps around. -/
def offsetOfWords? (b : Builder) (t : Text) (start stop : UInt64) : Option (Option UInt64) :=
  let window := b.sourceText ⟨start.toNat, stop.toNat⟩
  if window = t then some (some start)
  else if t.isEmpty then some none
  else
    match Text.find? t window with
    | none => some none
    | some n => (checkedAdd start (.ofNat n)).map some

/-- What `segment` gives, with the ends of the span as words; nothing, if a sum of two words wraps around. -/
def segmentOfWords? (b : Builder) (t : Text) (start stop : UInt64) : Option Segment :=
  (b.offsetOfWords? t start stop).map fun offset =>
    (offset.bind fun start => (Segment.ofWords b.source start (.ofNat t.bytes)).toOption).getD (.whole t)

/-- A place that is found in a span lies in the source, so its offset is a word. -/
theorem offsetOfWords?_eq (hsource : b.source.bytes < UInt64.size) (t : Text) (start stop : UInt64) :
    ∃ offset, b.offsetOfWords? t start stop = some offset ∧
      offset.map UInt64.toNat = b.offset? t ⟨start.toNat, stop.toNat⟩ := by
  rw [offsetOfWords?, offset?]
  by_cases hwhole : b.sourceText ⟨start.toNat, stop.toNat⟩ = t
  · exact ⟨some start, by rw [if_pos hwhole], by rw [if_pos hwhole]; rfl⟩
  · by_cases hempty : t.isEmpty = true
    · exact ⟨none, by rw [if_neg hwhole, if_pos hempty], by rw [if_neg hwhole, if_pos hempty]; rfl⟩
    · rw [if_neg hwhole, if_neg hempty, if_neg hwhole, if_neg hempty]
      cases hfind : Text.find? t (b.sourceText ⟨start.toNat, stop.toNat⟩) with
      | none => exact ⟨none, rfl, rfl⟩
      | some n =>
        have ht : t ≠ [] := fun hnil => hempty (by rw [hnil]; rfl)
        have hoffset : b.offset? t ⟨start.toNat, stop.toNat⟩ = some (start.toNat + n) := by
          rw [offset?_eq ht, hfind]
          rfl
        obtain ⟨before, after, hplace, hbytes⟩ := of_offset?_eq_some ht hoffset
        have hlt : start.toNat + n < UInt64.size := by
          rw [hplace, Text.bytes_append, Text.bytes_append] at hsource
          omega
        have hn : (UInt64.ofNat n).toNat = n := UInt64.toNat_ofNat_of_lt' (by omega)
        have hsum : checkedAdd start (.ofNat n) = some (.ofNat (start.toNat + n)) := by
          rw [checkedAdd_eq_some_iff, hn, UInt64.toNat_ofNat_of_lt' hlt]
        refine ⟨some (.ofNat (start.toNat + n)), by simp only [hsum, Option.map_some], ?_⟩
        rw [Option.map_some, Option.map_some, UInt64.toNat_ofNat_of_lt' hlt]

theorem segmentOfWords?_eq (hsource : b.source.bytes < UInt64.size) (ht : t.bytes < UInt64.size)
    (start stop : UInt64) :
    b.segmentOfWords? t start stop = some (b.segment t ⟨start.toNat, stop.toNat⟩) := by
  obtain ⟨offset, hwords, hoffset⟩ := offsetOfWords?_eq hsource t start stop
  rw [segmentOfWords?, hwords, Option.map_some, segment_eq_getD, shared?, ← hoffset]
  cases offset with
  | none => rfl
  | some offset =>
    rw [Option.bind_some, Option.map_some, Option.bind_some, Segment.ofWords_eq hsource,
      UInt64.toNat_ofNat_of_lt' ht]

/-- **The segment of a text is faithful**, for any source and any span: it shows just the text, and its window lies in
its buffer and cuts no character. A text that is not empty gets a window of the source just when the span can be read and
the text stands in it, and then the one of the first place from the start of the span on, which ends in the span; else
the segment is all of a buffer of its own. When the ends of the span are words, whatever they are, no sum wraps around. -/
theorem segment_faithful (b : Builder) (t : Text) (span : Span) :
    let s := b.segment t span
    s = (b.shared? t span).getD (.whole t) ∧
      s.text = t ∧ s.stop ≤ s.buffer.bytes ∧ s.buffer.isBoundary s.start = true ∧ s.buffer.isBoundary s.stop = true ∧
      (t ≠ [] → span.Holds b.source t → b.shared? t span = some s ∧ s.IsFirstIn b.source t span) ∧
      (t ≠ [] → ¬ span.Holds b.source t → b.shared? t span = none ∧ s = .whole t) ∧
      (b.source.bytes < UInt64.size → t.bytes < UInt64.size → ∀ start stop : UInt64,
        span = ⟨start.toNat, stop.toNat⟩ → b.segmentOfWords? t start stop = some s) := by
  intro s
  obtain ⟨hstart, hstop⟩ := s.isBoundary_start_stop
  refine ⟨segment_eq_getD b t span, text_segment b t span, Text.le_bytes_of_isBoundary hstop, hstart, hstop,
    fun ht hholds => ?_, fun ht hholds => ?_, fun hsource hbytes start stop hspan => ?_⟩
  · obtain ⟨s', hs', hfirst⟩ := isFirstIn_of_shared? ht hholds
    have heq : s = s' := (segment_eq_getD b t span).trans (by rw [hs', Option.getD_some])
    rw [heq]
    exact ⟨hs', hfirst⟩
  · have hnone : b.shared? t span = none := by rw [shared?, offset?_of_not_holds ht hholds, Option.bind_none]
    exact ⟨hnone, (segment_eq_getD b t span).trans (by rw [hnone, Option.getD_none])⟩
  · subst hspan
    exact segmentOfWords?_eq hsource hbytes start stop

/-- A letter that a source has twice: behind the first one it is found at the second, while from inside the first one,
or from the last word on, the span cannot be read. -/
theorem segment_faithful_accents :
    let b := new ['a', 'é', 'a', 'é']
    b.source.bytes < UInt64.size ∧ Text.bytes ['é'] < UInt64.size ∧
      (b.segment ['é'] ⟨3, 6⟩).IsFirstIn b.source ['é'] ⟨3, 6⟩ ∧ b.segment ['é'] ⟨2, 6⟩ = .whole ['é'] ∧
      b.segmentOfWords? ['é'] (-1) 6 = some (b.segment ['é'] ⟨UInt64.size - 1, 6⟩) := by
  intro b
  have hsource : b.source.bytes < UInt64.size := by decide
  have hbytes : Text.bytes ['é'] < UInt64.size := by decide
  have hheld : Span.Holds ⟨3, 6⟩ b.source ['é'] :=
    ⟨['a', 'é'], ['a', 'é'], [], rfl, by decide, by decide, ['a'], [], rfl⟩
  have hcut : ¬ Span.Holds ⟨2, 6⟩ b.source ['é'] := by
    intro hholds
    obtain ⟨w, hread, -⟩ := Span.holds_iff.1 hholds
    have hnone : Span.read? ⟨2, 6⟩ b.source = none := by decide
    rw [hnone] at hread
    cases hread
  obtain ⟨-, -, -, -, -, hshared, -⟩ := segment_faithful b ['é'] ⟨3, 6⟩
  obtain ⟨-, -, -, -, -, -, hown, -⟩ := segment_faithful b ['é'] ⟨2, 6⟩
  obtain ⟨-, -, -, -, -, -, -, hfar⟩ := segment_faithful b ['é'] ⟨UInt64.size - 1, 6⟩
  exact ⟨hsource, hbytes, (hshared (by decide) hheld).2, (hown (by decide) hcut).2,
    hfar hsource hbytes (-1) 6 rfl⟩

end Builder

end CommonMark
