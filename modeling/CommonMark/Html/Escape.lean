import CommonMark.CharacterReference
import CommonMark.Text.Literal

/-!
# Escaping

Text becomes HTML by replacing ampersand, angle brackets and the double quote. `pieces` copies the runs
between those characters as they are; `escapeChars` says what each character becomes on its own. Main
statement: the two agree (`flatten_pieces`).
-/

namespace CommonMark.Html

/-- The characters that HTML text cannot hold as they are (`NEEDS_ESCAPE`). -/
def isSpecial (c : Char) : Bool := c = '&' || c = '<' || c = '>' || c = '"'

/-- What stands for a character; `keep` says whether an ampersand stays (the `match` of `escape_chunk`). -/
def replacement (keep : Bool) (c : Char) : Text :=
  if c = '<' then "&lt;".toList
  else if c = '>' then "&gt;".toList
  else if c = '"' then "&quot;".toList
  else if c = '&' then (if keep then ['&'] else "&amp;".toList)
  else [c]

/-- The text character by character, from a byte offset on; `keeps` says at which offsets an ampersand
stays. -/
def escapeChars (keeps : Nat → Bool) : Nat → Text → Text
  | _, [] => []
  | offset, c :: t => replacement (keeps offset) c ++ escapeChars keeps (offset + c.utf8Size) t

/-- The same in pieces: runs of other characters are copied whole, and one more run, perhaps empty, ends the text
(`escape_chunk`). -/
def pieces (keeps : Nat → Bool) (offset : Nat) (t : Text) : List Text :=
  let run : Text := t.takeWhile fun c => !isSpecial c
  match h : t.dropWhile fun c => !isSpecial c with
  | [] => [run]
  | c :: rest =>
    have : rest.length < t.length := by
      have hle := (List.dropWhile_sublist (fun c => !isSpecial c) (l := t)).length_le
      rw [h, List.length_cons] at hle
      omega
    run :: replacement (keeps (offset + run.bytes)) c ::
      pieces keeps (offset + run.bytes + c.utf8Size) rest
termination_by t.length

/-- Whether the ampersand at an offset of a window stays: only when references are kept and the probe finds one that ends
inside the window (the guard in `escape_chunk`). -/
def keepsAt (preserve : Bool) (probe : Probe) (w : Segment) (offset : Nat) : Bool :=
  preserve && decide (0 < probe w.buffer offset (w.stop - offset))

/-- The pieces of a literal, window by window; the probe sees no further than the window. -/
def literalPieces (preserve : Bool) (probe : Probe) (l : Literal) : List Text :=
  l.chunks.flatMap fun w => pieces (keepsAt preserve probe w) w.start w.text

/-- A literal as HTML text (`escape_literal`). -/
def escapeLiteral (preserve : Bool) (probe : Probe) (l : Literal) : Text :=
  (literalPieces preserve probe l).flatten

/-- A text as HTML text (`escape_str`). -/
def escapeText (preserve : Bool) (probe : Probe) (t : Text) : Text :=
  escapeLiteral preserve probe (.plain t)

/-- Whether nothing in a text has to be escaped. -/
def isPlain (t : Text) : Bool := t.all fun c => !isSpecial c

/-- An escaped text: the one that was to be escaped, or a new one. -/
inductive Escaped where
  | borrowed (t : Text)
  | owned (t : Text)
  deriving DecidableEq, Repr

/-- The text itself. -/
def Escaped.text : Escaped → Text
  | borrowed t | owned t => t

instance : Coe Escaped Text := ⟨Escaped.text⟩

/-- A text as HTML text in which every ampersand is escaped; a plain text is given back as it is (`escape_html`). -/
def escapeHtml (t : Text) : Escaped := if isPlain t then .borrowed t else .owned (escapeText false .never t)

theorem replacement_of_not_special {c : Char} (keep : Bool) (h : isSpecial c = false) :
    replacement keep c = [c] := by
  simp only [isSpecial, Bool.or_eq_false_iff, decide_eq_false_iff_not] at h
  simp [replacement, h]

/-- A run without special characters is copied. -/
theorem escapeChars_run (keeps : Nat → Bool) (offset : Nat) (run rest : Text)
    (h : ∀ c ∈ run, isSpecial c = false) :
    escapeChars keeps offset (run ++ rest) = run ++ escapeChars keeps (offset + run.bytes) rest := by
  induction run generalizing offset with
  | nil => simp
  | cons c run ih =>
    have hc : isSpecial c = false := h c (by simp)
    have hr : ∀ d ∈ run, isSpecial d = false := fun d hd => h d (by simp [hd])
    simp [escapeChars, replacement_of_not_special _ hc, ih _ hr, Nat.add_assoc]

/-- Copying runs gives the same text as going character by character. -/
theorem flatten_pieces (keeps : Nat → Bool) (offset : Nat) (t : Text) :
    (pieces keeps offset t).flatten = escapeChars keeps offset t := by
  have hrun : ∀ c ∈ t.takeWhile (fun c => !isSpecial c), isSpecial c = false := by
    simpa using List.all_eq_true.1 (List.all_takeWhile (p := fun c => !isSpecial c) (l := t))
  have hsplit := List.takeWhile_append_dropWhile (p := fun c => !isSpecial c) (l := t)
  rw [pieces]
  split
  · rename_i h
    rw [h, List.append_nil] at hsplit
    have := escapeChars_run keeps offset _ [] hrun
    rw [hsplit, List.append_nil] at this
    simp [hsplit, this, escapeChars]
  · rename_i c rest h
    rw [h] at hsplit
    have hlt : rest.length < t.length := by rw [← hsplit]; simp; omega
    conv => rhs; rw [← hsplit, escapeChars_run keeps offset _ _ hrun, escapeChars]
    simp [flatten_pieces keeps _ rest]
termination_by t.length

end CommonMark.Html
