import CommonMark.CharacterReference
import Mathlib.Data.List.TakeWhile

/-!
# The spelling of character references

A text starts with a reference just when it starts with a spelling of one (`read?_eq_some_iff`). A spelling ends with
its semicolon, so what follows it does not count: a reference is read alike in a window and in the text around it, as
long as the window holds it whole (`read?_append`, `read?_of_append`).
-/

namespace CommonMark

namespace CharacterReference

/-! ## Digits -/

/-- Whether a text is one to `most` digits. -/
structure IsNumber (isDigit : Char → Bool) (most : Nat) (ds : Text) : Prop where
  digits : ∀ c ∈ ds, isDigit c = true
  ne_nil : ds ≠ []
  length_le : ds.length ≤ most

/-- A run that a character of another kind ends is what is taken, and the rest is dropped. -/
theorem run_append {p : Char → Bool} {run : Text} {c : Char} (hrun : ∀ d ∈ run, p d = true) (hc : p c = false)
    (rest : Text) :
    (run ++ c :: rest).takeWhile p = run ∧ (run ++ c :: rest).dropWhile p = c :: rest := by
  rw [List.takeWhile_append_of_pos hrun, List.dropWhile_append_of_pos hrun]
  simp [hc]

theorem digits?_eq_some_iff {isDigit : Char → Bool} (hsemicolon : isDigit ';' = false) {most : Nat} {t ds : Text} :
    digits? isDigit most t = some ds ↔ ∃ rest, t = ds ++ ';' :: rest ∧ IsNumber isDigit most ds := by
  constructor
  · intro h
    have hsplit := List.takeWhile_append_dropWhile (p := isDigit) (l := t)
    simp only [digits?] at h
    split at h
    · rename_i rest heq
      split at h
      · rename_i hds
        cases h
        refine ⟨rest, ?_, fun c hc => List.mem_takeWhile_imp hc, hds.1, hds.2⟩
        rw [← heq, hsplit]
      · cases h
    · cases h
  · rintro ⟨rest, rfl, hds⟩
    obtain ⟨htake, hdrop⟩ := run_append hds.digits hsemicolon rest
    simp [digits?, htake, hdrop, hds.ne_nil, hds.length_le]

/-! ## Spellings -/

/-- How a reference is written, from the ampersand to the semicolon. -/
inductive Spells : Body → Text → Prop
  | decimal {ds : Text} (h : IsNumber isDecimal 7 ds) : Spells (.decimal ds) ('&' :: '#' :: (ds ++ [';']))
  | hexadecimal {x : Char} {ds : Text} (hx : x = 'x' ∨ x = 'X') (h : IsNumber isHexadecimal 6 ds) :
    Spells (.hexadecimal ds) ('&' :: '#' :: x :: (ds ++ [';']))
  | named {name : Text} (hname : ∀ c ∈ name, isNameChar c = true) (h : isNamed name = true) :
    Spells (.named name) ('&' :: (name ++ [';']))

theorem spells_of_read? {t : Text} {b : Body} (h : read? t = some b) : ∃ s rest, t = s ++ rest ∧ Spells b s := by
  have hhexadecimal : ∀ {x : Char} {t : Text}, x = 'x' ∨ x = 'X' →
      (digits? isHexadecimal 6 t).map .hexadecimal = some b →
        ∃ s rest, '&' :: '#' :: x :: t = s ++ rest ∧ Spells b s := by
    intro x t hx h
    obtain ⟨ds, hds, rfl⟩ := Option.map_eq_some_iff.1 h
    obtain ⟨rest, rfl, hnumber⟩ := (digits?_eq_some_iff rfl).1 hds
    exact ⟨_, rest, by simp, .hexadecimal hx hnumber⟩
  unfold read? at h
  split at h
  · exact hhexadecimal (.inl rfl) h
  · exact hhexadecimal (.inr rfl) h
  · obtain ⟨ds, hds, rfl⟩ := Option.map_eq_some_iff.1 h
    obtain ⟨rest, rfl, hnumber⟩ := (digits?_eq_some_iff rfl).1 hds
    exact ⟨_, rest, by simp, .decimal hnumber⟩
  · rename_i t _ _ _
    have hsplit := List.takeWhile_append_dropWhile (p := isNameChar) (l := t)
    simp only at h
    split at h
    · rename_i rest heq
      split at h
      · rename_i hnamed
        cases h
        refine ⟨_, rest, ?_, .named (fun c hc => List.mem_takeWhile_imp hc) hnamed⟩
        conv => lhs; rw [← hsplit, heq]
        simp
      · cases h
    · cases h
  · cases h

/-- What follows a reference plays no part in reading it. -/
theorem read?_of_spells {b : Body} {s : Text} (h : Spells b s) (rest : Text) : read? (s ++ rest) = some b := by
  cases h with
  | @decimal ds h =>
    have hds : digits? isDecimal 7 (ds ++ ';' :: rest) = some ds := (digits?_eq_some_iff rfl).2 ⟨rest, rfl, h⟩
    obtain ⟨d, ds, rfl⟩ := List.exists_cons_of_ne_nil h.ne_nil
    have hd : isDecimal d = true := h.digits d List.mem_cons_self
    have hread := read?.eq_3 (d :: ds ++ ';' :: rest)
      (by rintro _ heq; cases heq; cases hd) (by rintro _ heq; cases heq; cases hd)
    rw [hds] at hread
    simpa using hread
  | @hexadecimal x ds hx h =>
    have hds : digits? isHexadecimal 6 (ds ++ ';' :: rest) = some ds := (digits?_eq_some_iff rfl).2 ⟨rest, rfl, h⟩
    rcases hx with rfl | rfl <;> simp [read?, hds]
  | @named name hname hnamed =>
    obtain ⟨htake, hdrop⟩ := run_append hname (c := ';') rfl rest
    -- a name does not start with a number sign
    have hsign : ∀ t, name ++ ';' :: rest = '#' :: t → False := by
      intro t heq
      cases name with
      | nil => cases heq
      | cons c name =>
        cases heq
        exact absurd (hname '#' List.mem_cons_self) (by decide)
    have hread := read?.eq_4 (name ++ ';' :: rest) (fun t => hsign _) (fun t => hsign _) hsign
    simpa [htake, hdrop, hnamed] using hread

/-- **A text starts with a reference when it starts with a spelling of it.** -/
theorem read?_eq_some_iff {t : Text} {b : Body} : read? t = some b ↔ ∃ s rest, t = s ++ rest ∧ Spells b s := by
  constructor
  · exact spells_of_read?
  · rintro ⟨s, rest, rfl, h⟩
    exact read?_of_spells h rest

/-! ## Lengths -/

theorem isNameChar_of_isLetter {c : Char} (h : isLetter c = true) : isNameChar c = true := by
  simp [isNameChar, h]

theorem isNameChar_of_isDecimal {c : Char} (h : isDecimal c = true) : isNameChar c = true := by
  simp [isNameChar, h]

theorem isNameChar_of_isHexadecimal {c : Char} (h : isHexadecimal c = true) : isNameChar c = true := by
  simp only [isHexadecimal, Bool.or_eq_true, Bool.and_eq_true, decide_eq_true_eq] at h
  rcases h with (h | ⟨hlow, hhigh⟩) | ⟨hlow, hhigh⟩
  · exact isNameChar_of_isDecimal h
  · simp [isNameChar, isLetter, hlow, Char.le_trans hhigh (show 'f' ≤ 'z' by decide)]
  · simp [isNameChar, isLetter, hlow, Char.le_trans hhigh (show 'F' ≤ 'Z' by decide)]

/-- The characters of names and numbers take one byte each. -/
theorem utf8Size_of_isNameChar {c : Char} (h : isNameChar c = true) : c.utf8Size = 1 := by
  have hle : c ≤ 'z' := by
    simp only [isNameChar, isLetter, isDecimal, Bool.or_eq_true, Bool.and_eq_true, decide_eq_true_eq] at h
    rcases h with (⟨-, h⟩ | ⟨-, h⟩) | ⟨-, h⟩
    · exact h
    · exact Char.le_trans h (by decide)
    · exact Char.le_trans h (by decide)
  have hval : c.val ≤ 0x7f := UInt32.le_trans hle (by decide)
  simp [Char.utf8Size, hval]

theorem bytes_of_isNameChar {t : Text} (h : ∀ c ∈ t, isNameChar c = true) : Text.bytes t = t.length := by
  induction t with
  | nil => rfl
  | cons c t ih =>
    have hc := utf8Size_of_isNameChar (h c List.mem_cons_self)
    have ht := ih fun d hd => h d (List.mem_cons_of_mem c hd)
    rw [Text.bytes_cons, hc, ht, List.length_cons, Nat.add_comm]

theorem length_of_spells {b : Body} {s : Text} (h : Spells b s) : b.length = s.length := by
  cases h <;> simp [Body.length]

/-- A reference has as many bytes as its body says. -/
theorem bytes_of_spells {b : Body} {s : Text} (h : Spells b s) : Text.bytes s = b.length := by
  have hsign : '&'.utf8Size = 1 ∧ '#'.utf8Size = 1 ∧ ';'.utf8Size = 1 ∧ 'x'.utf8Size = 1 ∧ 'X'.utf8Size = 1 := by
    decide
  cases h with
  | decimal h =>
    have hds := bytes_of_isNameChar fun c hc => isNameChar_of_isDecimal (h.digits c hc)
    simp [Body.length, hds, hsign]
    omega
  | hexadecimal hx h =>
    have hds := bytes_of_isNameChar fun c hc => isNameChar_of_isHexadecimal (h.digits c hc)
    rcases hx with rfl | rfl
    · simp [Body.length, hds, hsign]
      omega
    · simp [Body.length, hds, hsign]
      omega
  | named hname h =>
    simp [Body.length, bytes_of_isNameChar hname, hsign]
    omega

/-! ## Texts from left to right -/

/-- A reference starts with an ampersand. -/
theorem head_of_read? {c : Char} {t : Text} {b : Body} (h : read? (c :: t) = some b) : c = '&' := by
  obtain ⟨s, rest, hsplit, hs⟩ := read?_eq_some_iff.1 h
  cases hs <;> exact (List.cons.inj hsplit).1

/-- A text is empty, a reference and what follows it, or a character at which none starts and what follows that. -/
@[elab_as_elim]
theorem readInduction {P : Text → Prop} (nil : P [])
    (reference : ∀ (b : Body) (s rest : Text), Spells b s → P rest → P (s ++ rest))
    (character : ∀ (c : Char) (rest : Text), read? (c :: rest) = none → P rest → P (c :: rest)) (t : Text) : P t := by
  match t with
  | [] => exact nil
  | c :: t =>
    cases h : read? (c :: t) with
    | none => exact character c t h (readInduction nil reference character t)
    | some b =>
      obtain ⟨s, rest, hsplit, hs⟩ := read?_eq_some_iff.1 h
      have hlength : rest.length < (c :: t).length := by
        have hpos : 0 < s.length := by cases hs <;> simp
        rw [hsplit, List.length_append]
        omega
      rw [hsplit]
      exact reference b s rest hs (readInduction nil reference character rest)
termination_by t.length
decreasing_by
  · exact Nat.lt_succ_self t.length
  · exact hlength

/-! ## References in windows -/

/-- A reference that starts a text is read whatever follows the text. -/
theorem read?_append {t : Text} {b : Body} (h : read? t = some b) (rest : Text) : read? (t ++ rest) = some b := by
  obtain ⟨s, after, rfl, hs⟩ := read?_eq_some_iff.1 h
  rw [List.append_assoc]
  exact read?_of_spells hs (after ++ rest)

/-- A reference that a window holds whole is read in the window. -/
theorem read?_of_append {t rest : Text} {b : Body} (h : read? (t ++ rest) = some b) (hb : b.length ≤ Text.bytes t) :
    read? t = some b := by
  obtain ⟨s, after, hsplit, hs⟩ := read?_eq_some_iff.1 h
  have hbytes := bytes_of_spells hs
  rcases List.prefix_or_prefix_of_prefix (hsplit ▸ List.prefix_append s after) (List.prefix_append t rest) with
    ⟨after', rfl⟩ | ⟨more, rfl⟩
  · exact read?_of_spells hs after'
  · -- the window would be a part of the reference, and all of it
    have hmore : more = [] := by
      rw [← Text.bytes_eq_zero]
      simp only [Text.bytes_append] at hbytes
      omega
    subst hmore
    simpa using read?_of_spells hs []

end CharacterReference

end CommonMark
