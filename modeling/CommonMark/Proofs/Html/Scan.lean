import CommonMark.Event
import CommonMark.Proofs.Html.Escaping
import CommonMark.Proofs.Html.Limited
import CommonMark.Proofs.Segments
import CommonMark.Proofs.Utf8

/-!
# Escaping by scanning bytes

A window is escaped without a look at its characters. Its bytes are searched for the next one that has to be escaped,
the part of the buffer up to there is copied in one slice, and the search goes on behind it (`scan?`). A scan fails when
it asks for bytes outside the buffer or for a slice that cuts a character. It never does: on every window it gives the
pieces that escaping writes (`scan?_eq`), since no byte that is searched for occurs inside a longer character. So a sink
that does not fail receives what each character is written as on its own (`escapeLiteral_charByChar`).
-/

namespace CommonMark.Html

open CommonMark

/-! ## Bytes that are escaped -/

/-- Whether a byte is an ampersand, an angle bracket or a double quote. -/
def needsEscape (b : UInt8) : Bool := b = 0x26 || b = 0x3C || b = 0x3E || b = 0x22

/-- What is written in place of a byte that is escaped; `keep` says whether an ampersand stays. -/
def replacementOfByte (keep : Bool) (b : UInt8) : Text :=
  if b = 0x3C then "&lt;".toList
  else if b = 0x3E then "&gt;".toList
  else if b = 0x22 then "&quot;".toList
  else if keep then ['&']
  else "&amp;".toList

theorem lt_of_needsEscape {b : UInt8} (h : needsEscape b = true) : b < 0x80 := by
  simp only [needsEscape, Bool.or_eq_true, decide_eq_true_eq] at h
  rcases h with ((rfl | rfl) | rfl) | rfl <;> decide

/-- A special character is one byte, which is escaped as the character is. -/
theorem utf8EncodeChar_of_isSpecial {c : Char} (h : isSpecial c = true) :
    ∃ b, String.utf8EncodeChar c = [b] ∧ needsEscape b = true ∧
      ∀ keep, replacementOfByte keep b = replacement keep c := by
  rcases special_cases h with rfl | rfl | rfl | rfl
  · exact ⟨0x26, by decide, by decide, by decide⟩
  · exact ⟨0x3C, by decide, by decide, by decide⟩
  · exact ⟨0x3E, by decide, by decide, by decide⟩
  · exact ⟨0x22, by decide, by decide, by decide⟩

/-- A byte that is escaped and makes up a character makes up a special one. -/
theorem isSpecial_of_needsEscape {c : Char} {b : UInt8} (hc : String.utf8EncodeChar c = [b])
    (hb : needsEscape b = true) : isSpecial c = true := by
  have hchar : ∀ d : Char, String.utf8EncodeChar d = [b] → c = d := by
    intro d hd
    have hutf8 : Text.utf8 [c] = Text.utf8 [d] := by simp [hc, hd]
    exact List.head_eq_of_cons_eq (Text.utf8_injective hutf8)
  simp only [needsEscape, Bool.or_eq_true, decide_eq_true_eq] at hb
  rcases hb with ((rfl | rfl) | rfl) | rfl
  · rw [hchar '&' (by decide)]
    rfl
  · rw [hchar '<' (by decide)]
    rfl
  · rw [hchar '>' (by decide)]
    rfl
  · rw [hchar '"' (by decide)]
    rfl

/-- No byte of another character is escaped. -/
theorem needsEscape_of_not_special {c : Char} (h : isSpecial c = false) {b : UInt8}
    (hb : b ∈ String.utf8EncodeChar c) : needsEscape b = false := by
  refine Bool.eq_false_iff.2 fun hneeds => ?_
  by_cases hsize : c.utf8Size = 1
  · have hencode := String.utf8EncodeChar_eq_singleton hsize
    rw [hencode, List.mem_singleton] at hb
    rw [← hb] at hencode
    rw [isSpecial_of_needsEscape hencode hneeds] at h
    cases h
  · exact absurd (lt_of_needsEscape hneeds) (UInt8.not_lt.2 (le_of_mem_utf8EncodeChar hsize hb))

theorem needsEscape_of_plain {t : Text} (h : ∀ c ∈ t, isSpecial c = false) :
    ∀ b ∈ t.utf8, needsEscape b = false := by
  intro b hb
  obtain ⟨c, hc, hb⟩ := List.mem_flatMap.1 hb
  exact needsEscape_of_not_special (h c hc) hb

/-- A text is plain when no byte of it is escaped. -/
theorem isPlain_iff_bytes (t : Text) : isPlain t = true ↔ ∀ b ∈ t.utf8, needsEscape b = false := by
  simp only [isPlain, List.all_eq_true, Bool.not_eq_true']
  constructor
  · exact needsEscape_of_plain
  · intro h c hc
    refine Bool.eq_false_iff.2 fun hs => ?_
    obtain ⟨b, hencode, hneeds, -⟩ := utf8EncodeChar_of_isSpecial hs
    have hb : b ∈ t.utf8 := List.mem_flatMap.2 ⟨c, hc, by simp [hencode]⟩
    rw [h b hb] at hneeds
    cases hneeds

/-! ## The scan -/

/-- The bytes from one offset up to another, when these are in order and inside. -/
def bytesBetween? (bs : List UInt8) (start stop : Nat) : Option (List UInt8) :=
  if start ≤ stop ∧ stop ≤ bs.length then some ((bs.take stop).drop start) else none

/-- The offset of the next byte that is escaped, if there is one before the end; fails outside the bytes. -/
def nextSpecial? (bs : List UInt8) (start stop : Nat) : Option (Option Nat) :=
  (bytesBetween? bs start stop).map fun between => (between.findIdx? needsEscape).map (start + ·)

theorem nextSpecial?_bounds {bs : List UInt8} {start stop found : Nat}
    (h : nextSpecial? bs start stop = some (some found)) : start ≤ found ∧ found < stop := by
  obtain ⟨between, hbetween, h⟩ := Option.map_eq_some_iff.1 h
  obtain ⟨offset, hoffset, rfl⟩ := Option.map_eq_some_iff.1 h
  obtain ⟨hlt, -⟩ := List.findIdx?_eq_some_iff_getElem.1 hoffset
  rw [bytesBetween?] at hbetween
  split at hbetween
  · cases hbetween
    rw [List.length_drop, List.length_take] at hlt
    omega
  · cases hbetween

/-- The pieces of the bytes of a buffer that are not copied yet, up to an end; fails when it asks for bytes or for a
slice that the buffer does not have. -/
def scan? (keeps : Nat → Bool) (buffer : Text) (stop copied : Nat) : Option (List Text) :=
  match h : nextSpecial? buffer.utf8 copied stop with
  | none => none
  | some none => (Span.read? ⟨copied, stop⟩ buffer).map fun run => [run]
  | some (some found) =>
    have := nextSpecial?_bounds h
    (Span.read? ⟨copied, found⟩ buffer).bind fun run =>
      buffer.utf8[found]?.bind fun b =>
        (scan? keeps buffer stop (found + 1)).map fun rest =>
          run :: replacementOfByte (keeps found) b :: rest
termination_by stop - copied

theorem scan?_of_none {keeps : Nat → Bool} {buffer : Text} {stop copied : Nat}
    (h : nextSpecial? buffer.utf8 copied stop = some none) :
    scan? keeps buffer stop copied = (Span.read? ⟨copied, stop⟩ buffer).map fun run => [run] := by
  rw [scan?]
  split
  · simp_all
  · rfl
  · simp_all

theorem scan?_of_some {keeps : Nat → Bool} {buffer run : Text} {stop copied found : Nat} {b : UInt8}
    (h : nextSpecial? buffer.utf8 copied stop = some (some found))
    (hrun : Span.read? ⟨copied, found⟩ buffer = some run) (hb : buffer.utf8[found]? = some b) :
    scan? keeps buffer stop copied =
      (scan? keeps buffer stop (found + 1)).map fun rest => run :: replacementOfByte (keeps found) b :: rest := by
  rw [scan?]
  split
  · simp_all
  · simp_all
  · rename_i other hother
    obtain rfl : other = found := by simp_all
    rw [hrun, hb]
    rfl

/-- The pieces of a literal by scanning its windows one after another. -/
def scanLiteral? (preserve : Bool) (probe : Probe) (l : Literal) : Option (List Text) :=
  (l.chunks.mapM fun w => scan? (keepsAt preserve probe w) w.buffer w.stop w.start).map List.flatten

/-! ## Bytes of a text in a buffer -/

section

variable {before t after : Text}

theorem bytesBetween?_utf8 :
    bytesBetween? (before ++ t ++ after).utf8 before.bytes (before ++ t).bytes = some t.utf8 := by
  have hstop : before.bytes ≤ (before ++ t).bytes ∧ (before ++ t).bytes ≤ (before ++ t ++ after).utf8.length := by
    simp only [Text.length_utf8, Text.bytes_append]
    omega
  rw [bytesBetween?, if_pos hstop, Text.utf8_append, ← Text.length_utf8 (before ++ t), List.take_left,
    Text.utf8_append, ← Text.length_utf8 before, List.drop_left]

theorem read?_between : Span.read? ⟨before.bytes, (before ++ t).bytes⟩ (before ++ t ++ after) = some t := by
  have hle : before.bytes ≤ (before ++ t).bytes := by
    rw [Text.bytes_append]
    exact Nat.le_add_right ..
  have hlength : (before ++ t).bytes - before.bytes = t.bytes := by
    rw [Text.bytes_append]
    omega
  rw [Span.read?, if_pos hle, hlength]
  exact Text.slice?_eq_some_iff.2 ⟨before, after, rfl, rfl, rfl⟩

/-- In a plain text the search finds nothing. -/
theorem nextSpecial?_plain (h : ∀ c ∈ t, isSpecial c = false) :
    nextSpecial? (before ++ t ++ after).utf8 before.bytes (before ++ t).bytes = some none := by
  have hnone : t.utf8.findIdx? needsEscape = none := List.findIdx?_eq_none_iff.2 (needsEscape_of_plain h)
  rw [nextSpecial?, bytesBetween?_utf8, Option.map_some, hnone]
  rfl

/-- Behind a plain text the search finds the byte of a special character. -/
theorem nextSpecial?_special {run rest : Text} {c : Char} (hrun : ∀ d ∈ run, isSpecial d = false)
    (hc : isSpecial c = true) (ht : t = run ++ c :: rest) :
    nextSpecial? (before ++ t ++ after).utf8 before.bytes (before ++ t).bytes = some (some (before ++ run).bytes) := by
  obtain ⟨b, hencode, hneeds, -⟩ := utf8EncodeChar_of_isSpecial hc
  have hfound : t.utf8.findIdx? needsEscape = some run.bytes := by
    rw [ht, Text.utf8_append, Text.utf8_cons, hencode, List.findIdx?_append,
      List.findIdx?_eq_none_iff.2 (needsEscape_of_plain hrun)]
    simp [List.findIdx?_cons, hneeds]
  rw [nextSpecial?, bytesBetween?_utf8, Option.map_some, hfound, Text.bytes_append]
  rfl

end

/-! ## The scan writes the pieces -/

/-- **A scan of a window never fails and gives its pieces**: no slice that it takes leaves the buffer or cuts a
character. -/
theorem scan?_eq (keeps : Nat → Bool) (before t after : Text) :
    scan? keeps (before ++ t ++ after) (before ++ t).bytes before.bytes = some (pieces keeps before.bytes t) := by
  have hrun : ∀ c ∈ t.takeWhile (fun c => !isSpecial c), isSpecial c = false := by
    simpa using List.all_eq_true.1 (List.all_takeWhile (p := fun c => !isSpecial c) (l := t))
  have hsplit := List.takeWhile_append_dropWhile (p := fun c => !isSpecial c) (l := t)
  rw [pieces]
  split
  · rename_i h
    rw [h, List.append_nil] at hsplit
    have hplain : ∀ c ∈ t, isSpecial c = false := by rwa [hsplit] at hrun
    rw [scan?_of_none (nextSpecial?_plain hplain), read?_between, hsplit]
    rfl
  · rename_i c rest h
    rw [h] at hsplit
    have hc : isSpecial c = true := by
      have := List.head_dropWhile_not (fun c => !isSpecial c) (l := t) (by simp [h])
      simpa [h] using this
    obtain ⟨b, hencode, -, hreplacement⟩ := utf8EncodeChar_of_isSpecial hc
    have hsize : c.utf8Size = 1 := by rw [← String.length_utf8EncodeChar, hencode]; rfl
    generalize hrundef : t.takeWhile (fun c => !isSpecial c) = run at hsplit hrun
    have hlt : rest.length < t.length := by rw [← hsplit]; simp; omega
    -- what comes before the rest is copied already
    have hbuffer : before ++ t ++ after = (before ++ run ++ [c]) ++ rest ++ after := by simp [← hsplit]
    have hread : Span.read? ⟨before.bytes, (before ++ run).bytes⟩ (before ++ t ++ after) = some run := by
      rw [show before ++ t ++ after = before ++ run ++ (c :: rest ++ after) by simp [← hsplit]]
      exact read?_between
    have hbyte : (before ++ t ++ after).utf8[(before ++ run).bytes]? = some b := by
      rw [hbuffer, List.append_assoc, Text.utf8_append, Text.utf8_append (before ++ run), ← Text.length_utf8]
      simp [hencode]
    rw [scan?_of_some (nextSpecial?_special hrun hc hsplit.symm) hread hbyte]
    have hrest := scan?_eq keeps (before ++ run ++ [c]) rest after
    have hcopied : (before ++ run ++ [c]).bytes = (before ++ run).bytes + 1 := by simp [hsize, Nat.add_assoc]
    have hstop : (before ++ run ++ [c] ++ rest).bytes = (before ++ t).bytes := by simp [← hsplit]
    rw [← hbuffer, hstop, hcopied] at hrest
    rw [hrest, Option.map_some, hreplacement, Text.bytes_append, hsize]
termination_by t.length

theorem scan?_window (keeps : Nat → Bool) (w : Segment) :
    scan? keeps w.buffer w.stop w.start = some (pieces keeps w.start w.text) := by
  obtain ⟨before, after, hbuffer, hstart, hlength⟩ := Text.slice?_eq_some_iff.1 w.slice_eq
  have hstop : w.stop = (before ++ w.text).bytes := by rw [Segment.stop, Text.bytes_append, hstart, hlength]
  rw [hbuffer, hstop, ← hstart]
  exact scan?_eq keeps before w.text after

theorem scanLiteral?_eq (preserve : Bool) (probe : Probe) (l : Literal) :
    scanLiteral? preserve probe l = some (literalPieces preserve probe l) := by
  have hwindows : (l.chunks.mapM fun w => scan? (keepsAt preserve probe w) w.buffer w.stop w.start) =
      some (l.chunks.map fun w => pieces (keepsAt preserve probe w) w.start w.text) := by
    simp only [scan?_window]
    exact List.mapM_pure
  rw [scanLiteral?, hwindows, Option.map_some, literalPieces, List.flatMap_def]

/-! ## Character by character -/

/-- The characters of a text that starts at a byte offset, each with its own offset. -/
def placed : Nat → Text → List (Nat × Char)
  | _, [] => []
  | offset, c :: t => (offset, c) :: placed (offset + c.utf8Size) t

theorem of_mem_placed {offset p : Nat} {t : Text} {c : Char} (h : (p, c) ∈ placed offset t) :
    ∃ u v, t = u ++ c :: v ∧ p = offset + u.bytes := by
  induction t generalizing offset with
  | nil => cases h
  | cons d t ih =>
    rcases List.mem_cons.1 h with heq | h
    · cases heq
      exact ⟨[], t, rfl, rfl⟩
    · obtain ⟨u, v, rfl, rfl⟩ := ih h
      exact ⟨d :: u, v, rfl, by rw [Text.bytes_cons, Nat.add_assoc]⟩

/-- At its offset the buffer of a window has the character. -/
theorem slice?_of_mem_placed {w : Segment} {p : Nat} {c : Char} (h : (p, c) ∈ placed w.start w.text) :
    w.buffer.slice? p c.utf8Size = some [c] := by
  obtain ⟨before, after, hbuffer, hstart, -⟩ := Text.slice?_eq_some_iff.1 w.slice_eq
  obtain ⟨u, v, htext, rfl⟩ := of_mem_placed h
  refine Text.slice?_eq_some_iff.2 ⟨before ++ u, v ++ after, ?_, ?_, ?_⟩
  · rw [hbuffer, htext]
    simp
  · rw [Text.bytes_append, hstart]
  · rw [Text.bytes_cons, Text.bytes_nil, Nat.add_zero]

theorem escapeChars_eq_flatMap (keeps : Nat → Bool) (offset : Nat) (t : Text) :
    escapeChars keeps offset t = (placed offset t).flatMap fun c => replacement (keeps c.1) c.2 := by
  induction t generalizing offset with
  | nil => rfl
  | cons c t ih => rw [escapeChars, placed, List.flatMap_cons, ih]

/-- A literal in which each character of each window is written as what stands for it; an ampersand stays when
references are kept and the probe finds one there that ends inside the window. -/
def charByChar (preserve : Bool) (probe : Probe) (l : Literal) : Text :=
  l.chunks.flatMap fun w =>
    (placed w.start w.text).flatMap fun c => replacement (keepsAt preserve probe w c.1) c.2

theorem escapeLiteral_eq_charByChar (preserve : Bool) (probe : Probe) (l : Literal) :
    escapeLiteral preserve probe l = charByChar preserve probe l := by
  simp only [escapeLiteral_eq, escapeChars_eq_flatMap, charByChar]

/-! ## Sinks that do not fail -/

/-- Whether sinks of a kind take every text whole, stay of that kind, and have `received` what they took in order. -/
structure Sink.Faultless {σ : Type} [Sink σ] (kind : σ → Prop) (received : σ → Text) : Prop where
  takes : ∀ {sink}, kind sink → ∀ t, (put sink t).2 = true
  stays : ∀ {sink}, kind sink → ∀ t, kind (put sink t).1
  receives : ∀ {sink}, kind sink → ∀ t, received (put sink t).1 = received sink ++ t

theorem Buffer.faultless : Sink.Faultless (fun b : Buffer => b.room = none) Buffer.text where
  takes := by
    rintro ⟨r, _⟩ rfl t
    exact congrArg Prod.snd (put_of_no_limit r t)
  stays := by
    rintro ⟨r, _⟩ rfl t
    exact congrArg (fun b => b.1.room) (put_of_no_limit r t)
  receives := by
    rintro ⟨r, _⟩ rfl t
    refine (congrArg (fun b => b.1.text) (put_of_no_limit r t)).trans ?_
    simp only [text, List.reverse_append, List.reverse_reverse]

/-- Texts one after another all arrive. -/
theorem putAll_of_faultless {σ : Type} [Sink σ] {kind : σ → Prop} {received : σ → Text}
    (h : Sink.Faultless kind received) {sink : σ} (hsink : kind sink) (ts : List Text) :
    ∃ sink', Sink.putAll sink ts = (sink', true) ∧ received sink' = received sink ++ ts.flatten := by
  induction ts generalizing sink with
  | nil => exact ⟨sink, rfl, (List.append_nil _).symm⟩
  | cons t ts ih =>
    obtain ⟨sink', hall, hreceived⟩ := ih (h.stays hsink t)
    refine ⟨sink', ?_, ?_⟩
    · have hput : Sink.put sink t = ((Sink.put sink t).1, true) := Prod.ext rfl (h.takes hsink t)
      rw [Sink.putAll, hput]
      exact hall
    · rw [hreceived, h.receives hsink, List.append_assoc, List.flatten_cons]

/-! ## Texts that stay as they are -/

theorem length_le_flatMap_escapeChar (t : Text) : t.length ≤ (t.flatMap escapeChar).length := by
  induction t with
  | nil => exact Nat.le_refl _
  | cons c t ih =>
    have hpos := List.length_pos_iff.2 (escapeChar_ne_nil c)
    rw [List.flatMap_cons, List.length_append, List.length_cons]
    omega

/-- What is escaped gets longer, so only a plain text is written as it is. -/
theorem flatMap_escapeChar_eq_self_iff (t : Text) : t.flatMap escapeChar = t ↔ isPlain t = true := by
  induction t with
  | nil => exact ⟨fun _ => rfl, fun _ => rfl⟩
  | cons c t ih =>
    rw [List.flatMap_cons, isPlain, List.all_cons]
    cases hc : isSpecial c with
    | false =>
      rw [escapeChar, replacement_of_not_special false hc, List.singleton_append, List.cons.injEq, ih]
      simp [isPlain]
    | true =>
      have hlonger : 1 < (escapeChar c).length := by
        rcases special_cases hc with rfl | rfl | rfl | rfl <;> decide
      have hrest := length_le_flatMap_escapeChar t
      refine ⟨fun h => ?_, fun h => by simp at h⟩
      have hlength := congrArg List.length h
      rw [List.length_append, List.length_cons] at hlength
      omega

theorem charByChar_plain (probe : Probe) (t : Text) : charByChar false probe (.plain t) = t.flatMap escapeChar := by
  rw [← escapeLiteral_eq_charByChar]
  exact escapeText_never probe t

/-- A text is given back, or a new one is made in which each character is escaped. -/
theorem escapeHtml_eq (t : Text) :
    escapeHtml t = if t.flatMap escapeChar = t then .borrowed t else .owned (t.flatMap escapeChar) := by
  by_cases h : isPlain t = true
  · rw [escapeHtml, if_pos h, if_pos ((flatMap_escapeChar_eq_self_iff t).2 h)]
  · rw [escapeHtml, if_neg h, if_neg (mt (flatMap_escapeChar_eq_self_iff t).1 h), escapeText_never]

/-- **Escaping by bytes is escaping character by character**, for every probe. The scan of a literal never fails: no
slice that it takes leaves its buffer or cuts a character. It gives the pieces that are written, and a sink that does not
fail receives from them what each character of each window is written as, the character that the buffer has at its
offset. A text in which every ampersand is escaped is written alike; it is borrowed, since no byte of it is escaped, just
when what is written is the text itself, and else it is new. -/
theorem escapeLiteral_charByChar {σ : Type} [Sink σ] {kind : σ → Prop} {received : σ → Text}
    (h : Sink.Faultless kind received) {sink : σ} (hsink : kind sink) (preserve : Bool) (probe : Probe)
    (l : Literal) (t : Text) :
    scanLiteral? preserve probe l = some (literalPieces preserve probe l) ∧
    (∃ sink', Sink.putAll sink (literalPieces preserve probe l) = (sink', true) ∧
      received sink' = received sink ++ charByChar preserve probe l) ∧
    (∀ w ∈ l.chunks, ∀ c ∈ placed w.start w.text, w.buffer.slice? c.1 c.2.utf8Size = some [c.2]) ∧
    (escapeHtml t).text = charByChar false probe (.plain t) ∧
    (charByChar false probe (.plain t) = t ↔ escapeHtml t = .borrowed t) ∧
    (charByChar false probe (.plain t) ≠ t ↔ escapeHtml t = .owned (charByChar false probe (.plain t))) ∧
    (isPlain t = true ↔ ∀ b ∈ t.utf8, needsEscape b = false) ∧
    (isPlain t = true ↔ charByChar false probe (.plain t) = t) := by
  refine ⟨scanLiteral?_eq preserve probe l, ?_, fun w _ c hc => slice?_of_mem_placed hc, ?_, ?_, ?_,
    isPlain_iff_bytes t, ?_⟩
  · obtain ⟨sink', hall, hreceived⟩ := putAll_of_faultless h hsink (literalPieces preserve probe l)
    refine ⟨sink', hall, hreceived.trans ?_⟩
    rw [← escapeLiteral_eq_charByChar, escapeLiteral]
  · rw [escapeHtml_eq, charByChar_plain]
    split
    next hsame => exact hsame.symm
    next => rfl
  · rw [escapeHtml_eq, charByChar_plain]
    split <;> simp [*]
  · rw [escapeHtml_eq, charByChar_plain]
    split <;> simp [*]
  · rw [charByChar_plain, flatMap_escapeChar_eq_self_iff]

/-- Two windows of a buffer with a character of two bytes, written after a text: the first ends before the semicolon of
its reference, the second has a reference that stays. -/
theorem escapeLiteral_charByChar_windows :
    let buffer := "é<&#38;ü&#60;".toList
    let l : Literal := .segmented ⟨[⟨buffer, 0, 7, "é<&#38".toList, by decide⟩,
      ⟨buffer, 8, 7, "ü&#60;".toList, by decide⟩]⟩
    (Buffer.ofText "a".toList none).room = none ∧
    ∃ b, Sink.putAll (Buffer.ofText "a".toList none) (literalPieces true .html5 l) = (b, true) ∧
      b.text = "aé&lt;&amp;#38ü&#60;".toList := by
  intro buffer l
  have hroom : (Buffer.ofText "a".toList none).room = none := rfl
  obtain ⟨-, ⟨b, hall, hreceived⟩, -⟩ := escapeLiteral_charByChar Buffer.faultless hroom true .html5 l []
  refine ⟨hroom, b, hall, hreceived.trans ?_⟩
  decide

end CommonMark.Html
