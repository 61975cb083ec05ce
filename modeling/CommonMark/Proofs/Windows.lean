import CommonMark.Text.Segment

/-!
# Windows of a buffer

A window can be read just when it starts and ends where characters do (`Text.isSome_slice?_iff`), and then it is a
segment; else it is refused for the first of its faults (`Segment.ofWindow_cases`). A start and a length that are words
of 64 bits are added with a check, so that a window is never one of a sum that wrapped around (`Segment.ofWords_eq`).
-/

namespace CommonMark

/-! ## Windows that can be read -/

namespace Text

theorem isBoundary_iff {n : Nat} {t : Text} : isBoundary n t = true ↔ ∃ s r, t = s ++ r ∧ bytes s = n := by
  rw [isBoundary, Option.isSome_iff_exists]
  constructor
  · rintro ⟨r, hr⟩
    obtain ⟨s, hs⟩ := drop?_eq_some_iff.1 hr
    exact ⟨s, r, hs⟩
  · rintro ⟨s, r, hs⟩
    exact ⟨r, drop?_eq_some_iff.2 ⟨s, hs⟩⟩

/-- Of two beginnings of a text the longer one starts with the other. -/
theorem prefix_of_bytes_le {s s' t : Text} (h : s <+: t) (h' : s' <+: t) (hle : bytes s ≤ bytes s') : s <+: s' := by
  rcases List.prefix_or_prefix_of_prefix h h' with hs | ⟨more, rfl⟩
  · exact hs
  · rw [bytes_append] at hle
    have hmore : more = [] := bytes_eq_zero.1 (by omega)
    simp [hmore]

/-- A window can be read when both its ends are where characters start or end. -/
theorem isSome_slice?_iff {start length : Nat} {t : Text} :
    (slice? start length t).isSome = true ↔ isBoundary start t = true ∧ isBoundary (start + length) t = true := by
  simp only [Option.isSome_iff_exists, slice?_eq_some_iff, isBoundary_iff]
  constructor
  · rintro ⟨w, before, after, rfl, rfl, rfl⟩
    exact ⟨⟨before, w ++ after, by simp, rfl⟩, before ++ w, after, rfl, bytes_append ..⟩
  · rintro ⟨⟨before, rest, hstart, rfl⟩, before', after, hstop, hbytes⟩
    obtain ⟨w, rfl⟩ : before <+: before' :=
      prefix_of_bytes_le (hstart ▸ List.prefix_append before rest) (hstop ▸ List.prefix_append before' after)
        (by omega)
    rw [bytes_append] at hbytes
    exact ⟨w, before, after, hstop, rfl, by omega⟩

/-- A window starts with every shorter one from its offset. -/
theorem prefix_of_slice? {start length length' : Nat} {t w w' : Text} (h : slice? start length t = some w)
    (h' : slice? start length' t = some w') (hle : length ≤ length') : w <+: w' := by
  obtain ⟨r, hr, hw⟩ := Option.bind_eq_some_iff.1 h
  obtain ⟨r', hr', hw'⟩ := Option.bind_eq_some_iff.1 h'
  obtain rfl : r = r' := Option.some.inj (hr.symm.trans hr')
  obtain ⟨after, hsplit, rfl⟩ := take?_eq_some_iff.1 hw
  obtain ⟨after', hsplit', rfl⟩ := take?_eq_some_iff.1 hw'
  exact prefix_of_bytes_le (hsplit ▸ List.prefix_append w after) (hsplit' ▸ List.prefix_append w' after') hle

theorem le_bytes_of_isBoundary {n : Nat} {t : Text} (h : isBoundary n t = true) : n ≤ bytes t := by
  obtain ⟨s, r, rfl, rfl⟩ := isBoundary_iff.1 h
  rw [bytes_append]
  exact Nat.le_add_right ..

end Text

/-! ## Segments -/

namespace Segment

theorem bytes_text (s : Segment) : s.text.bytes = s.length := by
  obtain ⟨_, _, _, _, hlength⟩ := Text.slice?_eq_some_iff.1 s.slice_eq
  exact hlength

theorem slice?_of_ofWindow {buffer : Text} {start length : Nat} {s : Segment}
    (h : ofWindow buffer start length = .ok s) : buffer.slice? start length = some s.text := by
  unfold ofWindow at h
  split at h
  · cases h
  · split at h
    · cases h
    · cases h
    · rename_i hslice
      cases h
      exact hslice

/-- The window of a segment starts and ends where characters do. -/
theorem isBoundary_start_stop (s : Segment) :
    s.buffer.isBoundary s.start = true ∧ s.buffer.isBoundary s.stop = true :=
  Text.isSome_slice?_iff.1 (Option.isSome_of_eq_some s.slice_eq)

/-- Whether a segment is the one over a window. -/
structure Covers (s : Segment) (buffer : Text) (start length : Nat) : Prop where
  buffer : s.buffer = buffer
  start : s.start = start
  length : s.length = length

/-- What becomes of a window: it is refused because it leaves the buffer, or because of where it starts, or because of
where it ends, or else it is a segment. -/
theorem ofWindow_cases (buffer : Text) (start length : Nat) :
    (buffer.bytes < start + length ∧
      ofWindow buffer start length = .error (.outOfBounds start length buffer.bytes)) ∨
    (start + length ≤ buffer.bytes ∧ buffer.isBoundary start = false ∧
      ofWindow buffer start length = .error (.notCharBoundary start)) ∨
    (start + length ≤ buffer.bytes ∧ buffer.isBoundary start = true ∧ buffer.isBoundary (start + length) = false ∧
      ofWindow buffer start length = .error (.notCharBoundary (start + length))) ∨
    (start + length ≤ buffer.bytes ∧ buffer.isBoundary start = true ∧ buffer.isBoundary (start + length) = true ∧
      ∃ s, ofWindow buffer start length = .ok s ∧ s.Covers buffer start length) := by
  by_cases hbounds : buffer.bytes < start + length
  · exact .inl ⟨hbounds, if_pos hbounds⟩
  · have hle : start + length ≤ buffer.bytes := Nat.le_of_not_lt hbounds
    right
    rw [ofWindow, if_neg hbounds]
    split
    · rename_i hstart
      exact .inl ⟨hle, hstart, rfl⟩
    · rename_i hstart hslice
      have hstop : buffer.isBoundary (start + length) = false := by
        refine Bool.eq_false_iff.2 fun hstop => ?_
        have hread := Text.isSome_slice?_iff.2 ⟨hstart, hstop⟩
        rw [hslice] at hread
        cases hread
      exact .inr (.inl ⟨hle, hstart, hstop, rfl⟩)
    · rename_i text hstart hslice
      have hstop := (Text.isSome_slice?_iff.1 (Option.isSome_of_eq_some hslice)).2
      exact .inr (.inr ⟨hle, hstart, hstop, _, rfl, ⟨rfl, rfl, rfl⟩⟩)

end Segment

/-! ## Words -/

/-- The sum of two words of 64 bits, unless it wraps around. -/
def checkedAdd (m n : UInt64) : Option UInt64 := if m + n < m then none else some (m + n)

theorem checkedAdd_eq_some_iff {m n k : UInt64} : checkedAdd m n = some k ↔ m.toNat + n.toNat = k.toNat := by
  have hm := m.toNat_lt
  have hn := n.toNat_lt
  have hk := k.toNat_lt
  simp only [checkedAdd, UInt64.lt_iff_toNat_lt, UInt64.toNat_add]
  by_cases hwraps : m.toNat + n.toNat < 2 ^ 64
  · rw [Nat.mod_eq_of_lt hwraps, if_neg (by omega), Option.some_inj, ← UInt64.toNat_inj, UInt64.toNat_add,
      Nat.mod_eq_of_lt hwraps]
  · rw [if_pos (by omega)]
    simp only [reduceCtorEq, false_iff]
    omega

theorem checkedAdd_eq_none_iff {m n : UInt64} : checkedAdd m n = none ↔ UInt64.size ≤ m.toNat + n.toNat := by
  constructor
  · intro hnone
    refine Nat.le_of_not_lt fun hlt => ?_
    have hsum := checkedAdd_eq_some_iff.2 (UInt64.toNat_ofNat_of_lt' hlt).symm
    rw [hnone] at hsum
    cases hsum
  · intro hle
    refine Option.eq_none_iff_forall_ne_some.2 fun k hk => ?_
    have hsum := checkedAdd_eq_some_iff.1 hk
    have hlt := k.toNat_lt_size
    omega

namespace Segment

/-- The segment over a window that is given by words: their sum is added with a check before anything else is. -/
def ofWords (buffer : Text) (start length : UInt64) : Except SegmentError Segment :=
  match (checkedAdd start length).filter (·.toNat ≤ buffer.bytes) with
  | none => .error (.outOfBounds start.toNat length.toNat buffer.bytes)
  | some _ => ofWindow buffer start.toNat length.toNat

/-- No buffer is so long that a sum that wraps around would lie inside it. -/
theorem ofWords_eq {buffer : Text} (hbuffer : buffer.bytes < UInt64.size) (start length : UInt64) :
    ofWords buffer start length = ofWindow buffer start.toNat length.toNat := by
  have hrefused (hout : buffer.bytes < start.toNat + length.toNat) :
      ofWindow buffer start.toNat length.toNat = .error (.outOfBounds start.toNat length.toNat buffer.bytes) :=
    if_pos hout
  cases hsum : checkedAdd start length with
  | none =>
    have hwraps := checkedAdd_eq_none_iff.1 hsum
    rw [ofWords, hsum, hrefused (by omega)]
    rfl
  | some stop =>
    have hstop := checkedAdd_eq_some_iff.1 hsum
    by_cases hle : stop.toNat ≤ buffer.bytes
    · rw [ofWords, hsum, Option.filter_some, if_pos (decide_eq_true hle)]
    · rw [ofWords, hsum, Option.filter_some, if_neg (by simpa using hle), hrefused (by omega)]

end Segment

end CommonMark
