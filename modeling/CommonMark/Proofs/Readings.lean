import CommonMark.Proofs.Utf8
import CommonMark.Proofs.Windows
import CommonMark.Text.Literal

/-!
# Readings of a literal

A content is put together from windows that are tried one after another: those that can be read are kept unless they are
empty, and the others leave it as it is (`Content.takeAll`). It is read in many ways: window by window, all at once,
written out, measured, or asked whether there is anything. All of them look at the buffers anew, and all agree on one
text (`Content.readsAs_text`), which has the bytes that were asked for (`Content.utf8_takeAll`). Starts and lengths are
any words of 64 bits, so a sum of the two can wrap around; such a window is refused. The length of a text is a word too.
A content may share so many windows that no string could hold its text; then the text cannot be had at once, only window
by window, and when there are not enough words to count its bytes, the length wraps around (`Content.bytes_eq`).
-/

namespace CommonMark

/-! ## Reading windows -/

/-- The bytes of a window are those of the buffer that stand there. -/
theorem Text.utf8_of_slice? {start length : Nat} {t w : Text} (h : slice? start length t = some w) :
    w.utf8 = (t.utf8.drop start).take length := by
  obtain ⟨before, after, rfl, rfl, rfl⟩ := slice?_eq_some_iff.1 h
  rw [utf8_append, utf8_append, List.append_assoc, List.drop_left' (length_utf8 before),
    List.take_left' (length_utf8 w)]

namespace Segment

/-- The text of a segment as it is read from the buffer; nothing if the window were not in it. -/
def read? (s : Segment) : Option Text := s.buffer.slice? s.start s.length

theorem read?_eq (s : Segment) : s.read? = some s.text := s.slice_eq

theorem mapM_read? (ss : List Segment) : ss.mapM read? = some (ss.map (·.text)) := by
  induction ss with
  | nil => rfl
  | cons s ss ih => simp [List.mapM_cons, read?_eq, ih]

/-- A window is empty when its text is. -/
theorem isEmpty_iff (s : Segment) : s.isEmpty = true ↔ s.text = [] := by
  rw [isEmpty, decide_eq_true_iff, ← bytes_text, Text.bytes_eq_zero]

/-- What a place holds once windows are written to it one after another, as each is read from its buffer. -/
def appendAll? (held : Text) (ss : List Segment) : Option Text :=
  ss.foldlM (fun held s => s.read?.map (held ++ ·)) held

theorem appendAll?_eq (held : Text) (ss : List Segment) :
    appendAll? held ss = some (held ++ ss.flatMap (·.text)) := by
  induction ss generalizing held with
  | nil => simp [appendAll?]
  | cons s ss ih =>
    have hrest := ih (held ++ s.text)
    rw [appendAll?] at hrest ⊢
    rw [List.foldlM_cons, read?_eq, Option.map_some, Option.bind_eq_bind, Option.bind_some, hrest, List.flatMap_cons,
      List.append_assoc]

end Segment

/-! ## Reading contents -/

namespace Content

/-- The number of bytes that no string has: half as many as there are words. -/
def stringLimit : Nat := UInt64.size / 2

/-- The text of a content at once (`SegmentedContent::to_cow`): that of one window is read where it stands, and those of
several are appended to an empty string. -/
def join? (c : Content) : Option Text :=
  match c.segments with
  | [] => some []
  | [s] => s.read?
  | ss => (Segment.appendAll? [] ss).filter fun t => t.bytes < stringLimit

/-- What a place holds once a content is written to it. -/
def display? (c : Content) (held : Text) : Option Text := Segment.appendAll? held c.segments

/-- Whether a content has a text, in whichever way it is read, by itself or as a literal. The length is a word of 64
bits, so it is exact when a word can say how long the text is. -/
structure ReadsAs (c : Content) (t : Text) : Prop where
  segments : (c.segments.mapM Segment.read?).map List.flatten = some t
  chunks : ((Literal.segmented c).chunks.mapM Segment.read?).map List.flatten = some t
  display : ∀ held, c.display? held = some (held ++ t)
  text : (Literal.segmented c).text = t
  join : c.join? = some t ∨ c.join? = none ∧ stringLimit ≤ t.bytes
  isEmpty : c.isEmpty = true ↔ t = []
  bytes : c.bytes = t.bytes % UInt64.size
  literalBytes : (Literal.segmented c).bytes = t.bytes % UInt64.size
  exact : t.bytes < UInt64.size → c.bytes = t.bytes ∧ (Literal.segmented c).bytes = t.bytes ∧
    ((Literal.segmented c).isEmpty = true ↔ t = [])

/-- Words that are added up wrap around. -/
theorem toNat_foldl_bytes (ss : List Segment) (n : UInt64) :
    (ss.foldl (fun n s => n + UInt64.ofNat s.length) n).toNat =
      (n.toNat + Text.bytes (ss.flatMap (·.text))) % UInt64.size := by
  induction ss generalizing n with
  | nil => exact (Nat.mod_eq_of_lt n.toNat_lt).symm
  | cons s ss ih =>
    have hsum : (n + UInt64.ofNat s.length).toNat = (n.toNat + s.length) % UInt64.size := by
      rw [UInt64.toNat_add, UInt64.toNat_ofNat', Nat.add_mod_mod]
    rw [List.foldl_cons, ih, hsum, List.flatMap_cons, Text.bytes_append, s.bytes_text, Nat.mod_add_mod, Nat.add_assoc]

theorem bytes_eq (c : Content) : c.bytes = c.text.bytes % UInt64.size := by
  rw [bytes, toNat_foldl_bytes, UInt64.toNat_zero, Nat.zero_add, text]

theorem isEmpty_iff (c : Content) : c.isEmpty = true ↔ c.text = [] := by
  simp only [isEmpty, text, List.all_eq_true, List.flatMap_eq_nil_iff, Segment.isEmpty_iff]

theorem join?_cases (c : Content) : c.join? = some c.text ∨ c.join? = none ∧ stringLimit ≤ c.text.bytes := by
  obtain ⟨ss⟩ := c
  rcases ss with _ | ⟨s, _ | ⟨s', ss⟩⟩
  · exact .inl rfl
  · exact .inl (by simp [join?, text, Segment.read?_eq])
  · have happend : Segment.appendAll? [] (s :: s' :: ss) = some (text ⟨s :: s' :: ss⟩) :=
      Segment.appendAll?_eq [] _
    simp only [join?, happend, Option.filter_some, decide_eq_true_eq]
    split
    next => exact .inl rfl
    next hlong => exact .inr ⟨rfl, Nat.le_of_not_lt hlong⟩

/-- All readings of a content agree. -/
theorem readsAs_text (c : Content) : c.ReadsAs c.text := by
  have hpieces : (c.segments.mapM Segment.read?).map List.flatten = some c.text := by
    rw [Segment.mapM_read?, Option.map_some]
    rfl
  refine ⟨hpieces, hpieces, (Segment.appendAll?_eq · c.segments), rfl, c.join?_cases, c.isEmpty_iff, c.bytes_eq,
    c.bytes_eq, fun hshort => ?_⟩
  have hbytes : c.bytes = c.text.bytes := c.bytes_eq.trans (Nat.mod_eq_of_lt hshort)
  refine ⟨hbytes, hbytes, ?_⟩
  rw [Literal.isEmpty, decide_eq_true_iff, Literal.bytes, hbytes, Text.bytes_eq_zero]

end Content

/-! ## Windows that are tried -/

/-- An attempt to take a window from a buffer, whose length is a word as well. -/
structure Attempt where
  buffer : Text
  start : UInt64
  length : UInt64
  fits : buffer.bytes < UInt64.size

namespace Attempt

/-- The segment over the window, or why there is none. -/
def segment (a : Attempt) : Except SegmentError Segment := Segment.ofWords a.buffer a.start a.length

/-- Whether the window lies in the buffer and both its ends are where characters start or end. -/
def IsWindow (a : Attempt) : Prop :=
  a.start.toNat + a.length.toNat ≤ a.buffer.bytes ∧ a.buffer.isBoundary a.start.toNat = true ∧
    a.buffer.isBoundary (a.start.toNat + a.length.toNat) = true

instance : DecidablePred IsWindow := fun _ => inferInstanceAs (Decidable (_ ∧ _))

/-- The bytes of the buffer in the window. -/
def bytes (a : Attempt) : List UInt8 := (a.buffer.utf8.drop a.start.toNat).take a.length.toNat

/-- An attempt gives the segment over a window, or it fails and there is no window. -/
theorem segment_cases (a : Attempt) :
    (a.IsWindow ∧ ∃ s, a.segment = .ok s ∧ s.Covers a.buffer a.start.toNat a.length.toNat) ∨
      (¬ a.IsWindow ∧ ∃ e, a.segment = .error e) := by
  rw [segment, Segment.ofWords_eq a.fits, IsWindow]
  rcases Segment.ofWindow_cases a.buffer a.start.toNat a.length.toNat with
    ⟨hout, herror⟩ | ⟨-, hstart, herror⟩ | ⟨-, -, hstop, herror⟩ | ⟨hle, hstart, hstop, hsegment⟩
  · exact .inr ⟨fun h => by omega, _, herror⟩
  · exact .inr ⟨fun h => absurd h.2.1 (by simp [hstart]), _, herror⟩
  · exact .inr ⟨fun h => absurd h.2.2 (by simp [hstop]), _, herror⟩
  · exact .inl ⟨⟨hle, hstart, hstop⟩, hsegment⟩

theorem isOk_segment_iff (a : Attempt) : a.segment.isOk = true ↔ a.IsWindow := by
  rcases a.segment_cases with ⟨hwindow, s, hs, -⟩ | ⟨hnone, e, he⟩
  · simp [hs, hwindow, Except.isOk, Except.toBool]
  · simp [he, hnone, Except.isOk, Except.toBool]

/-- The segment of an attempt has the bytes that the attempt asks for. -/
theorem utf8_text {a : Attempt} {s : Segment} (h : s.Covers a.buffer a.start.toNat a.length.toNat) :
    s.text.utf8 = a.bytes := by
  rw [bytes, ← h.buffer, ← h.start, ← h.length]
  exact Text.utf8_of_slice? s.slice_eq

end Attempt

namespace Content

/-- The content with the segment of an attempt after it, if the attempt succeeds. -/
def take (c : Content) (a : Attempt) : Content :=
  match a.segment with
  | .ok s => c.push s
  | .error _ => c

/-- The content after attempts, one after another. -/
def takeAll (c : Content) (as : List Attempt) : Content := as.foldl take c

theorem takeAll_append (c : Content) (as bs : List Attempt) : c.takeAll (as ++ bs) = (c.takeAll as).takeAll bs :=
  List.foldl_append

/-- Whether a content stores no window that is empty. -/
def Full (c : Content) : Prop := ∀ s ∈ c.segments, s.isEmpty = false

theorem text_push (c : Content) (s : Segment) : (c.push s).text = c.text ++ s.text := by
  rw [push]
  split
  · rename_i hs
    rw [s.isEmpty_iff.1 hs, List.append_nil]
  · simp [text]

theorem Full.push {c : Content} (h : c.Full) (s : Segment) : (c.push s).Full := by
  rw [Content.push]
  split
  · exact h
  · rename_i hs
    intro s' hs'
    rcases List.mem_append.1 hs' with hs' | hs'
    · exact h s' hs'
    · obtain rfl := List.mem_singleton.1 hs'
      exact Bool.eq_false_iff.2 hs

theorem Full.takeAll {c : Content} (h : c.Full) (as : List Attempt) : (c.takeAll as).Full := by
  induction as generalizing c with
  | nil => exact h
  | cons a as ih =>
    refine ih (c := c.take a) ?_
    unfold take
    split
    · exact h.push _
    · exact h

/-- An attempt adds the bytes of its window, if there is one. -/
theorem utf8_take (c : Content) (a : Attempt) :
    (c.take a).text.utf8 = c.text.utf8 ++ if a.IsWindow then a.bytes else [] := by
  rcases a.segment_cases with ⟨hwindow, s, hs, hcovers⟩ | ⟨hnone, e, he⟩
  · rw [take, hs, if_pos hwindow, ← Attempt.utf8_text hcovers, ← Text.utf8_append, ← text_push]
  · rw [take, he, if_neg hnone, List.append_nil]

theorem utf8_takeAll (c : Content) (as : List Attempt) :
    (c.takeAll as).text.utf8 = c.text.utf8 ++ (as.filter fun a => a.IsWindow).flatMap Attempt.bytes := by
  induction as generalizing c with
  | nil => exact (List.append_nil _).symm
  | cons a as ih =>
    have hrest : (c.takeAll (a :: as)).text.utf8 = _ := ih (c.take a)
    rw [hrest, utf8_take, List.append_assoc]
    by_cases hwindow : a.IsWindow
    · simp [hwindow]
    · simp [hwindow]

end Content

end CommonMark
