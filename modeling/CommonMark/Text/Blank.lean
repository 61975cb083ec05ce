import CommonMark.Text.Basic

/-!
# White space

Two sets: the characters with the Unicode property White_Space, which are trimmed from the ends of
texts, and the five ASCII characters that part the words of a code block's info string.
-/

namespace CommonMark

/-- Ranges of the property White_Space. -/
def blankRanges : List (Nat × Nat) :=
  [(0x09, 0x0D), (0x20, 0x20), (0x85, 0x85), (0xA0, 0xA0), (0x1680, 0x1680), (0x2000, 0x200A),
   (0x2028, 0x2029), (0x202F, 0x202F), (0x205F, 0x205F), (0x3000, 0x3000)]

/-- Whether a character has the property White_Space. -/
def isBlank (c : Char) : Bool :=
  blankRanges.any fun r => r.1 ≤ c.toNat && c.toNat ≤ r.2

/-- Space, tab, line feed, form feed and carriage return part words; the vertical tab does not. -/
def isWordGap (c : Char) : Bool :=
  c = ' ' || c = '\t' || c = '\n' || c = '\x0c' || c = '\r'

namespace Text

/-- Without the white space at its end. -/
def trimEnd : Text → Text
  | [] => []
  | c :: t =>
    match trimEnd t with
    | [] => if isBlank c then [] else [c]
    | d :: r => c :: d :: r

/-- Without the white space at its two ends. -/
def trim (t : Text) : Text := trimEnd (t.dropWhile isBlank)

/-- The first word, if there is one. -/
def firstWord? (t : Text) : Option Text :=
  match (t.dropWhile isWordGap).takeWhile (fun c => !isWordGap c) with
  | [] => none
  | c :: w => some (c :: w)

/-- Trimming the end leaves a beginning of the text and cuts off white space only. -/
theorem trimEnd_append_blank (t : Text) :
    ∃ tail, t = trimEnd t ++ tail ∧ ∀ c ∈ tail, isBlank c = true := by
  induction t with
  | nil => exact ⟨[], by simp [trimEnd]⟩
  | cons c t ih =>
    obtain ⟨tail, h₁, h₂⟩ := ih
    cases hr : trimEnd t with
    | nil =>
      rw [hr, List.nil_append] at h₁
      by_cases hc : isBlank c = true
      · refine ⟨c :: t, by simp [trimEnd, hr, hc], fun d hd => ?_⟩
        rcases List.mem_cons.1 hd with rfl | hd
        · exact hc
        · exact h₂ d (h₁ ▸ hd)
      · exact ⟨t, by simp [trimEnd, hr, hc], h₁ ▸ h₂⟩
    | cons d r =>
      refine ⟨tail, ?_, h₂⟩
      simp only [trimEnd, hr]
      rw [hr] at h₁
      rw [List.cons_append, ← h₁]

end Text

end CommonMark
