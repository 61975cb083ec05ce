import CommonMark.Proofs.Html.Joined

/-!
# References that escaping keeps

Escaping goes on character by character, also inside a reference that it keeps, but behind its ampersand a reference
has no character that is escaped: so it comes out whole (`escapeKeeping_of_spells`), and what stands for a special
character is a reference too (`spells_escapeChar`). Each ampersand of an escaped text therefore starts a reference,
and escaping the text once more changes nothing (`escapeText_html5_safe`). Whoever reads a text as characters and
references reads the escaped text alike (`readPieces_escapeText_html5`).
-/

namespace CommonMark

open CharacterReference

namespace CharacterReference

/-- The table has the names that escaping writes. -/
theorem isNamed_escaped :
    isNamed "amp".toList = true ∧ isNamed "lt".toList = true ∧ isNamed "gt".toList = true ∧
      isNamed "quot".toList = true := by
  have hnamed : ∀ (name : String) (points : List Nat), (name, points) ∈ lowerA ∨ (name, points) ∈ lowerL ∨
      (name, points) ∈ lowerFToH ∨ (name, points) ∈ lowerOToQ → isNamed name.toList = true := by
    intro name points h
    have hmem : (name, points) ∈ names := by
      unfold names
      simp only [List.mem_append]
      rcases h with h | h | h | h <;> simp only [h, or_true, true_or]
    simp only [isNamed, List.any_eq_true, beq_iff_eq, String.ofList_toList]
    exact ⟨_, hmem, rfl⟩
  have hamp : ("amp", [0x26]) ∈ lowerA := by decide
  have hlt : ("lt", [0x3C]) ∈ lowerL := by decide
  have hgt : ("gt", [0x3E]) ∈ lowerFToH := by decide
  have hquot : ("quot", [0x22]) ∈ lowerOToQ := by decide
  exact ⟨hnamed "amp" _ (.inl hamp), hnamed "lt" _ (.inr (.inl hlt)), hnamed "gt" _ (.inr (.inr (.inl hgt))),
    hnamed "quot" _ (.inr (.inr (.inr hquot)))⟩

end CharacterReference

namespace Html

theorem isSpecial_of_isNameChar {c : Char} (h : isNameChar c = true) : isSpecial c = false := by
  refine Bool.eq_false_iff.2 fun hs => ?_
  rcases special_cases hs with rfl | rfl | rfl | rfl <;> exact absurd h (by decide)

/-- Behind its ampersand a reference has no special character. -/
theorem not_special_of_spells {b : Body} {s : Text} (h : CharacterReference.Spells b s) :
    ∃ body, s = '&' :: body ∧ ∀ c ∈ body, isSpecial c = false := by
  have hend : ∀ {t : Text}, (∀ c ∈ t, isNameChar c = true) → ∀ c ∈ t ++ [';'], isSpecial c = false := by
    intro t ht c hc
    rcases List.mem_append.1 hc with hc | hc
    · exact isSpecial_of_isNameChar (ht c hc)
    · rw [List.mem_singleton.1 hc]
      decide
  cases h with
  | decimal h =>
    refine ⟨_, rfl, fun c hc => ?_⟩
    rcases List.mem_cons.1 hc with rfl | hc
    · decide
    · exact hend (fun c hc => isNameChar_of_isDecimal (h.digits c hc)) c hc
  | @hexadecimal x ds hx h =>
    refine ⟨_, rfl, fun c hc => ?_⟩
    rcases List.mem_cons.1 hc with rfl | hc
    · decide
    rcases List.mem_cons.1 hc with rfl | hc
    · rcases hx with rfl | rfl <;> decide
    · exact hend (fun c hc => isNameChar_of_isHexadecimal (h.digits c hc)) c hc
  | named hname _ => exact ⟨_, rfl, hend hname⟩

/-- What stands for a special character is a reference. -/
theorem spells_escapeChar {c : Char} (h : isSpecial c = true) : ∃ b, CharacterReference.Spells b (escapeChar c) := by
  obtain ⟨hamp, hlt, hgt, hquot⟩ := isNamed_escaped
  rcases special_cases h with rfl | rfl | rfl | rfl
  · exact ⟨_, .named (List.all_eq_true.1 (by decide)) hamp⟩
  · exact ⟨_, .named (List.all_eq_true.1 (by decide)) hlt⟩
  · exact ⟨_, .named (List.all_eq_true.1 (by decide)) hgt⟩
  · exact ⟨_, .named (List.all_eq_true.1 (by decide)) hquot⟩

/-! ## What is copied -/

theorem escapeKeeping_cons {c : Char} (h : isSpecial c = false) (t : Text) :
    escapeKeeping (c :: t) = c :: escapeKeeping t := by
  rw [escapeKeeping, replacement_of_not_special _ h]
  rfl

theorem escapeKeeping_plain {s : Text} (h : ∀ c ∈ s, isSpecial c = false) (t : Text) :
    escapeKeeping (s ++ t) = s ++ escapeKeeping t := by
  induction s with
  | nil => rfl
  | cons c s ih =>
    rw [List.cons_append, escapeKeeping_cons (h c List.mem_cons_self), ih fun d hd => h d (List.mem_cons_of_mem c hd),
      List.cons_append]

/-- **A reference is kept whole.** -/
theorem escapeKeeping_of_spells {b : Body} {s : Text} (h : CharacterReference.Spells b s) (t : Text) :
    escapeKeeping (s ++ t) = s ++ escapeKeeping t := by
  have hread : read? (s ++ t) = some b := read?_of_spells h t
  obtain ⟨body, rfl, hbody⟩ := not_special_of_spells h
  rw [List.cons_append] at hread ⊢
  rw [escapeKeeping, hread, escapeKeeping_plain hbody]
  rfl

/-- Where no reference starts, each special character is escaped. -/
theorem escapeKeeping_of_read?_eq_none {c : Char} {t : Text} (h : read? (c :: t) = none) :
    escapeKeeping (c :: t) = escapeChar c ++ escapeKeeping t := by
  rw [escapeKeeping, h]
  rfl

/-! ## Escaping twice -/

/-- Whether each ampersand of a text starts a reference and no other special character is in it. -/
def IsEscaped (t : Text) : Prop :=
  Mark.isQuotable t = true ∧ ∀ u v, t = u ++ '&' :: v → (read? ('&' :: v)).isSome = true

theorem IsEscaped.tail {c : Char} {t : Text} (h : IsEscaped (c :: t)) : IsEscaped t := by
  refine ⟨?_, fun u v hsplit => h.2 (c :: u) v (by rw [hsplit, List.cons_append])⟩
  have hall := h.1
  rw [Mark.isQuotable, Text.isFreeOf_cons, Bool.and_eq_true] at hall
  exact hall.2

/-- A reference, and characters that are not special, may stand before an escaped text. -/
theorem IsEscaped.spells_append {b : Body} {s t : Text} (hs : CharacterReference.Spells b s) (ht : IsEscaped t) :
    IsEscaped (s ++ t) := by
  have hread : read? (s ++ t) = some b := read?_of_spells hs t
  obtain ⟨body, rfl, hbody⟩ := not_special_of_spells hs
  refine ⟨?_, fun u v hsplit => ?_⟩
  · rw [isQuotable_append, ht.1, Bool.and_true]
    rw [Mark.isQuotable, Text.isFreeOf_cons, Bool.and_eq_true]
    refine ⟨by decide, Text.isFreeOf_iff.2 fun c hc => ?_⟩
    have hplain := hbody c hc
    simp_all [isSpecial, Mark.reserved]
  · rw [List.cons_append] at hsplit hread
    cases u with
    | nil =>
      rw [← List.nil_append ('&' :: v), ← hsplit, hread]
      rfl
    | cons c u =>
      -- the ampersand stands behind the reference
      obtain ⟨-, hrest⟩ := List.cons.inj hsplit
      rcases List.append_eq_append_iff.1 hrest with ⟨w, rfl, ht'⟩ | ⟨w, hw, hv⟩
      · exact ht.2 w v ht'
      · cases w with
        | nil => exact ht.2 [] v hv.symm
        | cons d w =>
          obtain ⟨rfl, -⟩ := List.cons.inj hv
          have hamp := hbody '&' (by rw [hw]; simp)
          exact absurd hamp (by decide)

theorem IsEscaped.cons {c : Char} {t : Text} (hc : isSpecial c = false) (ht : IsEscaped t) : IsEscaped (c :: t) := by
  refine ⟨?_, fun u v hsplit => ?_⟩
  · have hall : Mark.isQuotable t = true := ht.1
    simp_all [Mark.isQuotable, Text.isFreeOf_cons, Mark.reserved, isSpecial]
  · cases u with
    | nil =>
      obtain ⟨rfl, -⟩ := List.cons.inj hsplit
      exact absurd hc (by decide)
    | cons d u => exact ht.2 u v (List.cons.inj hsplit).2

/-- **What is escaped stays escaped.** -/
theorem isEscaped_escapeKeeping (t : Text) : IsEscaped (escapeKeeping t) := by
  induction t using readInduction with
  | nil => exact ⟨rfl, fun u v hsplit => by simp [escapeKeeping] at hsplit⟩
  | reference b s rest hs ih =>
    rw [escapeKeeping_of_spells hs]
    exact ih.spells_append hs
  | character c t hnone ih =>
    rw [escapeKeeping_of_read?_eq_none hnone]
    cases hc : isSpecial c with
    | true =>
      obtain ⟨b, hb⟩ := spells_escapeChar hc
      exact ih.spells_append hb
    | false =>
      rw [escapeChar, replacement_of_not_special false hc]
      exact ih.cons hc

/-- Nothing of an escaped text has to be escaped. -/
theorem escapeKeeping_of_isEscaped {t : Text} (h : IsEscaped t) : escapeKeeping t = t := by
  induction t with
  | nil => rfl
  | cons c t ih =>
    have ht := ih h.tail
    cases hc : isSpecial c with
    | false => rw [escapeKeeping_cons hc, ht]
    | true =>
      rcases special_cases hc with rfl | rfl | rfl | rfl
      · rw [escapeKeeping, h.2 [] t rfl, ht]
        rfl
      all_goals exact absurd h.1 (by simp [Mark.isQuotable, Text.isFreeOf_cons, Mark.reserved])

/-- **Escaping that keeps references is safe and idempotent**: what it writes has no angle bracket and no quote, each
ampersand of it starts a reference, and escaping it once more changes nothing. -/
theorem escapeText_html5_safe (t : Text) :
    let y := escapeText true .html5 t
    (∀ c ∈ y, c ≠ '<' ∧ c ≠ '>' ∧ c ≠ '"') ∧
    (∀ u v, y = u ++ '&' :: v → 0 < Probe.html5 y u.bytes (y.bytes - u.bytes)) ∧
    escapeText true .html5 y = y := by
  intro y
  have hy : IsEscaped y := by
    have h := isEscaped_escapeKeeping t
    rwa [← escapeText_html5] at h
  refine ⟨fun c hc => ?_, fun u v hsplit => ?_, ?_⟩
  · have hfree : ∀ d ∈ Mark.reserved, c ≠ d := fun d hd heq => Text.isFreeOf_iff.1 hy.1 c hc (heq ▸ hd)
    exact ⟨hfree '<' (by decide), hfree '>' (by decide), hfree '"' (by decide)⟩
  · obtain ⟨b, hb⟩ := Option.isSome_iff_exists.1 (hy.2 u v hsplit)
    have hrest : y.bytes - u.bytes = Text.bytes ('&' :: v) := by
      rw [hsplit, Text.bytes_append]
      omega
    have hslice : y.slice? u.bytes (Text.bytes ('&' :: v)) = some ('&' :: v) :=
      Text.slice?_eq_some_iff.2 ⟨u, [], by rw [hsplit, List.append_nil], rfl, rfl⟩
    rw [hrest, html5_of_slice? hslice, hb]
    cases b <;> simp [Body.length]
  · rw [escapeText_html5]
    exact escapeKeeping_of_isEscaped hy

/-! ## Reading characters and references -/

/-- What a reader takes a text for, piece by piece. -/
inductive Piece where
  | character (c : Char)
  /-- A reference, as it is written. -/
  | reference (written : Text)
  deriving DecidableEq, Repr

/-- What a reference is taken for: those that escaping writes are the characters they stand for. -/
def Piece.ofReference (written : Text) : Piece :=
  if written = "&amp;".toList then .character '&'
  else if written = "&lt;".toList then .character '<'
  else if written = "&gt;".toList then .character '>'
  else if written = "&quot;".toList then .character '"'
  else .reference written

/-- A text from left to right: a reference where the probe finds one, else a character. A reference has as many
characters as bytes. -/
def readPieces : Text → List Piece
  | [] => []
  | c :: t =>
    match Probe.html5 (c :: t) 0 (Text.bytes (c :: t)) with
    | 0 => .character c :: readPieces t
    | n + 1 => .ofReference (c :: t.take n) :: readPieces (t.drop n)
termination_by t => t.length
decreasing_by
  · exact Nat.lt_succ_self t.length
  · rw [List.length_drop, List.length_cons]
    omega

/-- At the start of a text the probe sees all of it. -/
theorem html5_zero (t : Text) : Probe.html5 t 0 t.bytes = (read? t).elim 0 (·.length) :=
  html5_of_slice? (Text.slice?_eq_some_iff.2 ⟨[], [], (List.append_nil t).symm, rfl, rfl⟩)

theorem readPieces_of_spells {b : Body} {s : Text} (h : CharacterReference.Spells b s) (t : Text) :
    readPieces (s ++ t) = .ofReference s :: readPieces t := by
  have hread : read? (s ++ t) = some b := read?_of_spells h t
  have hlength : b.length = s.length := length_of_spells h
  obtain ⟨body, rfl, -⟩ := not_special_of_spells h
  rw [List.cons_append] at hread ⊢
  rw [readPieces, html5_zero, hread, Option.elim_some, hlength, List.length_cons]
  simp only [List.take_left, List.drop_left]

theorem readPieces_of_read?_eq_none {c : Char} {t : Text} (h : read? (c :: t) = none) :
    readPieces (c :: t) = .character c :: readPieces t := by
  rw [readPieces, html5_zero, h, Option.elim_none]

/-- What stands for a special character is taken for the character. -/
theorem ofReference_escapeChar {c : Char} (h : isSpecial c = true) : Piece.ofReference (escapeChar c) = .character c := by
  rcases special_cases h with rfl | rfl | rfl | rfl <;> decide

theorem readPieces_escapeKeeping (t : Text) : readPieces (escapeKeeping t) = readPieces t := by
  induction t using readInduction with
  | nil => rfl
  | reference b s rest hs ih =>
    rw [escapeKeeping_of_spells hs, readPieces_of_spells hs, readPieces_of_spells hs, ih]
  | character c t hnone ih =>
    rw [escapeKeeping_of_read?_eq_none hnone, readPieces_of_read?_eq_none hnone]
    cases hc : isSpecial c with
    | true =>
      obtain ⟨b, hb⟩ := spells_escapeChar hc
      rw [readPieces_of_spells hb, ofReference_escapeChar hc, ih]
    | false =>
      have hne : read? (c :: escapeKeeping t) = none := by
        refine Option.eq_none_iff_forall_ne_some.2 fun b hb => ?_
        rw [head_of_read? hb] at hc
        exact absurd hc (by decide)
      rw [escapeChar, replacement_of_not_special false hc, List.singleton_append, readPieces_of_read?_eq_none hne, ih]

/-- **Escaping that keeps references does not change what a reader takes a text for.** -/
theorem readPieces_escapeText_html5 (t : Text) : readPieces (escapeText true .html5 t) = readPieces t := by
  rw [escapeText_html5, readPieces_escapeKeeping]

end Html

end CommonMark
