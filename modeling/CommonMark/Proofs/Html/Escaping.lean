import CommonMark.Proofs.Html.Token
import CommonMark.Text.Blank

/-!
# Escaped text

Escaping goes window by window and character by character (`escapeLiteral_eq`). When no reference is kept it
depends on the text alone (`escapeLiteral_never`) and can be undone (`decode_escape`), white space stays as it
is, and whatever is kept, an escaped text may stand between double quotes (`isQuotable_escapeLiteral`).
-/

namespace CommonMark.Html

/-- What a character of text is written as. -/
abbrev escapeChar (c : Char) : Text := replacement false c

theorem special_cases {c : Char} (h : isSpecial c = true) : c = '&' ∨ c = '<' ∨ c = '>' ∨ c = '"' := by
  simpa [isSpecial, or_assoc] using h

theorem escapeChar_of_blank {c : Char} (h : isBlank c = true) : escapeChar c = [c] := by
  refine replacement_of_not_special false (Bool.eq_false_iff.2 fun hs => ?_)
  rcases special_cases hs with rfl | rfl | rfl | rfl <;> exact absurd h (by decide)

theorem escapeChar_ne_nil (c : Char) : escapeChar c ≠ [] := by
  cases hs : isSpecial c with
  | false => simp [escapeChar, replacement_of_not_special false hs]
  | true => rcases special_cases hs with rfl | rfl | rfl | rfl <;> decide

theorem trimEnd_escapeChar (c : Char) :
    (escapeChar c).trimEnd = if isBlank c then [] else escapeChar c := by
  cases hs : isSpecial c with
  | false => simp [escapeChar, replacement_of_not_special false hs, Text.trimEnd]
  | true => rcases special_cases hs with rfl | rfl | rfl | rfl <;> decide

/-- No character of a replacement is a quote or an angle bracket. -/
theorem isQuotable_replacement (keep : Bool) (c : Char) : Mark.isQuotable (replacement keep c) = true := by
  cases hs : isSpecial c with
  | false =>
    rw [replacement_of_not_special keep hs]
    simp_all [isSpecial, Mark.isQuotable, Mark.reserved, Text.isFreeOf]
  | true => rcases special_cases hs with rfl | rfl | rfl | rfl <;> cases keep <;> decide

theorem not_mem_escapeChar (c : Char) : '<' ∉ escapeChar c :=
  Text.not_mem_of_isFreeOf (by decide) (isQuotable_replacement false c)

/-! ## Texts and literals -/

theorem escapeLiteral_eq (preserve : Bool) (probe : Probe) (l : Literal) :
    escapeLiteral preserve probe l =
      l.chunks.flatMap fun w => escapeChars (keepsAt preserve probe w) w.start w.text := by
  rw [escapeLiteral, literalPieces]
  induction l.chunks with
  | nil => rfl
  | cons w ws ih => simp only [List.flatMap_cons, List.flatten_append, ih, flatten_pieces]

theorem escapeChars_never (offset : Nat) (t : Text) :
    escapeChars (fun _ => false) offset t = t.flatMap escapeChar := by
  induction t generalizing offset with
  | nil => rfl
  | cons c t ih => rw [escapeChars, ih, List.flatMap_cons]

/-- Only an ampersand may stay. -/
theorem replacement_of_ne {c : Char} (h : c ≠ '&') (keep keep' : Bool) : replacement keep c = replacement keep' c := by
  simp only [replacement, h, ite_false]

/-- The pieces of a text depend on no more than which of its ampersands stay. -/
theorem pieces_congr {keeps keeps' : Nat → Bool} {offset offset' : Nat} {t : Text}
    (h : ∀ u v, t = u ++ '&' :: v → keeps (offset + u.bytes) = keeps' (offset' + u.bytes)) :
    pieces keeps offset t = pieces keeps' offset' t := by
  have hsplit := List.takeWhile_append_dropWhile (p := fun c => !isSpecial c) (l := t)
  rw [pieces, pieces]
  split
  · rfl
  · rename_i c rest hdrop
    rw [hdrop] at hsplit
    have hlt : rest.length < t.length := by rw [← hsplit]; simp; omega
    have hspecial : replacement (keeps (offset + Text.bytes (t.takeWhile fun c => !isSpecial c))) c =
        replacement (keeps' (offset' + Text.bytes (t.takeWhile fun c => !isSpecial c))) c := by
      by_cases hc : c = '&'
      · rw [h _ _ (hc ▸ hsplit.symm)]
      · exact replacement_of_ne hc _ _
    rw [hspecial, pieces_congr]
    intro u v hrest
    have hnext := h (t.takeWhile (fun c => !isSpecial c) ++ c :: u) v (hsplit.symm.trans (by rw [hrest]; simp))
    simpa only [Text.bytes_append, Text.bytes_cons, Nat.add_assoc] using hnext
termination_by t.length

theorem keepsAt_never (probe : Probe) (w : Segment) : keepsAt false probe w = fun _ => false := by
  funext offset
  exact Bool.false_and _

/-- When no reference is kept, only the text counts. -/
theorem escapeLiteral_never (probe : Probe) (l : Literal) :
    escapeLiteral false probe l = l.text.flatMap escapeChar := by
  simp only [escapeLiteral_eq, keepsAt_never, escapeChars_never, ← Literal.flatMap_chunks]
  induction l.chunks with
  | nil => rfl
  | cons w ws ih => simp only [List.flatMap_cons, List.flatMap_append, ih]

theorem escapeText_never (probe : Probe) (t : Text) : escapeText false probe t = t.flatMap escapeChar :=
  escapeLiteral_never probe (.plain t)

theorem isQuotable_append (s t : Text) :
    Mark.isQuotable (s ++ t) = (Mark.isQuotable s && Mark.isQuotable t) := Text.isFreeOf_append Mark.reserved s t

theorem isQuotable_escapeChars (keeps : Nat → Bool) (offset : Nat) (t : Text) :
    Mark.isQuotable (escapeChars keeps offset t) = true := by
  induction t generalizing offset with
  | nil => rfl
  | cons c t ih => rw [escapeChars, isQuotable_append, isQuotable_replacement, ih]; rfl

theorem isQuotable_escapeLiteral (preserve : Bool) (probe : Probe) (l : Literal) :
    Mark.isQuotable (escapeLiteral preserve probe l) = true := by
  rw [escapeLiteral_eq]
  induction l.chunks with
  | nil => rfl
  | cons w ws ih => rw [List.flatMap_cons, isQuotable_append, isQuotable_escapeChars, ih]; rfl

theorem isQuotable_escapeText (preserve : Bool) (probe : Probe) (t : Text) :
    Mark.isQuotable (escapeText preserve probe t) = true := isQuotable_escapeLiteral preserve probe _

/-! ## Decoding -/

/-- A text with the four references that escaping writes read as the characters they stand for. -/
def decode : Text → Text
  | '&' :: 'l' :: 't' :: ';' :: t => '<' :: decode t
  | '&' :: 'g' :: 't' :: ';' :: t => '>' :: decode t
  | '&' :: 'q' :: 'u' :: 'o' :: 't' :: ';' :: t => '"' :: decode t
  | '&' :: 'a' :: 'm' :: 'p' :: ';' :: t => '&' :: decode t
  | c :: t => c :: decode t
  | [] => []

theorem decode_cons {c : Char} (h : c ≠ '&') (t : Text) : decode (c :: t) = c :: decode t := by
  rw [decode] <;> rintro _ rfl <;> exact absurd rfl h

/-- Each character reads back, whatever follows it. -/
theorem decode_escapeChar (c : Char) (t : Text) : decode (escapeChar c ++ t) = c :: decode t := by
  cases hs : isSpecial c with
  | false =>
    rw [escapeChar, replacement_of_not_special false hs, List.singleton_append]
    exact decode_cons (by rintro rfl; exact absurd hs (by decide)) t
  | true => rcases special_cases hs with rfl | rfl | rfl | rfl <;> rfl

/-- **Escaping can be undone.** -/
theorem decode_escape (t : Text) : decode (t.flatMap escapeChar) = t := by
  induction t with
  | nil => rfl
  | cons c t ih => rw [List.flatMap_cons, decode_escapeChar, ih]

end CommonMark.Html
