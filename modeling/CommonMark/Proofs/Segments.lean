import CommonMark.Document.Builder
import CommonMark.Proofs.Windows

/-!
# Segments of a builder

A builder takes the text of an event together with a span of the source, and looks for the text there. Wherever
it stands, and also when it stands nowhere, the segment shows just the text (`text_segment`).
-/

namespace CommonMark

/-- A text that is found stands at its offset. -/
theorem Text.of_find?_eq_some {part t : Text} {n : Nat} (h : Text.find? part t = some n) :
    ∃ before after, t = before ++ part ++ after ∧ before.bytes = n := by
  induction t generalizing n with
  | nil =>
    rw [find?] at h
    split at h
    · rename_i hpart
      rw [List.isEmpty_iff] at hpart
      cases h
      exact ⟨[], [], by simp [hpart], rfl⟩
    · cases h
  | cons c t ih =>
    rw [find?] at h
    split at h
    · rename_i hpart
      obtain ⟨after, hafter⟩ := List.isPrefixOf_iff_prefix.1 hpart
      cases h
      exact ⟨[], after, hafter.symm, rfl⟩
    · obtain ⟨m, hm, rfl⟩ := Option.map_eq_some_iff.1 h
      obtain ⟨before, after, rfl, rfl⟩ := ih hm
      exact ⟨c :: before, after, rfl, rfl⟩

theorem Span.of_read?_eq_some {s : Span} {t w : Text} (h : s.read? t = some w) :
    ∃ before after, t = before ++ w ++ after ∧ before.bytes = s.start := by
  unfold read? at h
  split at h
  · obtain ⟨before, after, ht, hb, _⟩ := Text.slice?_eq_some_iff.1 h
    exact ⟨before, after, ht, hb⟩
  · cases h

namespace Builder

/-- A text that is not empty stands in the source at the offset found for it. -/
theorem of_offset?_eq_some {b : Builder} {t : Text} {span : Span} {start : Nat} (hne : t ≠ [])
    (h : b.offset? t span = some start) : ∃ before after, b.source = before ++ t ++ after ∧ before.bytes = start := by
  cases hread : span.read? b.source with
  | none =>
    have hfind : Text.find? t [] = none := by simp [Text.find?, hne]
    simp [offset?, sourceText, hread, hne.symm, hne, hfind] at h
  | some window =>
    obtain ⟨before, after, hsource, hstart⟩ := Span.of_read?_eq_some hread
    simp only [offset?, sourceText, hread, Option.getD_some] at h
    split at h
    · rename_i hw
      cases h
      exact ⟨before, after, hw ▸ hsource, hstart⟩
    · rw [if_neg (by simp [hne])] at h
      obtain ⟨m, hm, rfl⟩ := Option.map_eq_some_iff.1 h
      obtain ⟨before', after', rfl, rfl⟩ := Text.of_find?_eq_some hm
      exact ⟨before ++ before', after' ++ after, by simp [hsource], by rw [Text.bytes_append, hstart]⟩

/-- **A segment shows the text that it was made for**, wherever that stands. -/
theorem text_segment (b : Builder) (t : Text) (span : Span) : (b.segment t span).text = t := by
  unfold segment
  split
  · rfl
  · rename_i start hstart
    split
    · rename_i s hs
      have hslice := Segment.slice?_of_ofWindow hs
      by_cases hne : t = []
      · -- an empty text may be looked for at a place that the source does not have
        obtain ⟨_, _, _, _, hlength⟩ := Text.slice?_eq_some_iff.1 hslice
        rw [hne] at hlength ⊢
        exact Text.bytes_eq_zero.1 hlength
      · obtain ⟨before, after, hsource, hbefore⟩ := of_offset?_eq_some hne hstart
        have ht : b.source.slice? start t.bytes = some t :=
          Text.slice?_eq_some_iff.2 ⟨before, after, hsource, hbefore, rfl⟩
        exact Option.some.inj (hslice.symm.trans ht)
    · rfl

end Builder

end CommonMark
