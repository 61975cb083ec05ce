import CommonMark.Proofs.Html.Escaping

/-!
# Escaped texts and what they stand for

A text in which every ampersand is escaped can be decoded, so different texts are escaped differently. What escaping
writes are the texts without angle brackets and quotes in which each ampersand starts one of the four references that
escaping writes (`IsWritten`), and escaping what such a text decodes to gives it back (`decode_escapeText`).
-/

namespace CommonMark.Html

/-- The references that escaping writes. -/
def writtenReferences : List Text := ["&amp;".toList, "&lt;".toList, "&gt;".toList, "&quot;".toList]

/-- Whether a text has no angle bracket and no quote, and each ampersand of it starts a reference that escaping
writes. -/
structure IsWritten (t : Text) : Prop where
  quotable : ∀ c ∈ t, c ≠ '<' ∧ c ≠ '>' ∧ c ≠ '"'
  references : ∀ u v, t = u ++ '&' :: v → ∃ r ∈ writtenReferences, r <+: '&' :: v

theorem isWritten_nil : IsWritten [] := ⟨by simp, by simp⟩

/-- Only an ampersand looks at what follows it. -/
theorem isWritten_cons {c : Char} {t : Text} :
    IsWritten (c :: t) ↔
      (c ≠ '<' ∧ c ≠ '>' ∧ c ≠ '"') ∧ (c = '&' → ∃ r ∈ writtenReferences, r <+: c :: t) ∧ IsWritten t := by
  constructor
  · intro h
    refine ⟨h.quotable c List.mem_cons_self, ?_, fun d hd => h.quotable d (List.mem_cons_of_mem c hd), ?_⟩
    · rintro rfl
      exact h.references [] t rfl
    · intro u v ht
      exact h.references (c :: u) v (by rw [ht, List.cons_append])
  · rintro ⟨hc, hamp, ht⟩
    refine ⟨fun d hd => ?_, fun u v hsplit => ?_⟩
    · rcases List.mem_cons.1 hd with rfl | hd
      · exact hc
      · exact ht.quotable d hd
    · cases u with
      | nil =>
        obtain ⟨rfl, rfl⟩ := List.cons.inj hsplit
        exact hamp rfl
      | cons d u => exact ht.references u v (List.cons.inj hsplit).2

theorem isWritten_cons_of_not_special {c : Char} (h : isSpecial c = false) {t : Text} :
    IsWritten (c :: t) ↔ IsWritten t := by
  have hne : c ≠ '&' ∧ c ≠ '<' ∧ c ≠ '>' ∧ c ≠ '"' := by simpa [isSpecial, and_assoc] using h
  rw [isWritten_cons]
  exact ⟨fun h => h.2.2, fun h => ⟨hne.2, fun hc => absurd hc hne.1, h⟩⟩

/-- A special character is written as one of the four references. -/
theorem escapeChar_mem_writtenReferences {c : Char} (h : isSpecial c = true) :
    escapeChar c ∈ writtenReferences := by
  rcases special_cases h with rfl | rfl | rfl | rfl <;> decide

/-- A reference may stand before what is written. -/
theorem isWritten_append {r : Text} (hr : r ∈ writtenReferences) {t : Text} :
    IsWritten (r ++ t) ↔ IsWritten t := by
  obtain ⟨body, rfl, hbody⟩ : ∃ body, r = '&' :: body ∧ isPlain body = true := by
    simp only [writtenReferences, List.mem_cons, List.not_mem_nil, or_false] at hr
    rcases hr with rfl | rfl | rfl | rfl <;> exact ⟨_, rfl, by decide⟩
  have hplain : ∀ s : Text, isPlain s = true → (IsWritten (s ++ t) ↔ IsWritten t) := by
    intro s hs
    induction s with
    | nil => rfl
    | cons c s ih =>
      rw [isPlain, List.all_cons, Bool.and_eq_true, Bool.not_eq_true'] at hs
      rw [List.cons_append, isWritten_cons_of_not_special hs.1]
      exact ih hs.2
  rw [List.cons_append, isWritten_cons, hplain body hbody]
  refine ⟨fun h => h.2.2, fun h => ⟨by decide, fun _ => ⟨_, hr, ?_⟩, h⟩⟩
  rw [← List.cons_append]
  exact List.prefix_append _ t

theorem isWritten_escape (t : Text) : IsWritten (t.flatMap escapeChar) := by
  induction t with
  | nil => exact isWritten_nil
  | cons c t ih =>
    rw [List.flatMap_cons]
    cases hc : isSpecial c with
    | false =>
      rw [escapeChar, replacement_of_not_special false hc, List.singleton_append]
      exact (isWritten_cons_of_not_special hc).2 ih
    | true => exact (isWritten_append (escapeChar_mem_writtenReferences hc)).2 ih

/-- **What is written is the escape of what it decodes to.** The cases are those of the decoder: one of the four
references, or a character that stands for itself. -/
theorem escape_decode {y : Text} (h : IsWritten y) : (decode y).flatMap escapeChar = y := by
  fun_induction decode y with
  | case1 t ih =>
    have ht : IsWritten t := (isWritten_append (r := "&lt;".toList) (by decide)).1 h
    rw [List.flatMap_cons, ih ht]
    rfl
  | case2 t ih =>
    have ht : IsWritten t := (isWritten_append (r := "&gt;".toList) (by decide)).1 h
    rw [List.flatMap_cons, ih ht]
    rfl
  | case3 t ih =>
    have ht : IsWritten t := (isWritten_append (r := "&quot;".toList) (by decide)).1 h
    rw [List.flatMap_cons, ih ht]
    rfl
  | case4 t ih =>
    have ht : IsWritten t := (isWritten_append (r := "&amp;".toList) (by decide)).1 h
    rw [List.flatMap_cons, ih ht]
    rfl
  | case5 c t hlt hgt hquot hamp ih =>
    obtain ⟨hc, href, ht⟩ := isWritten_cons.1 h
    have hne : c ≠ '&' := by
      intro heq
      obtain ⟨r, hr, rest, hrest⟩ := href heq
      simp only [writtenReferences, List.mem_cons, List.not_mem_nil, or_false] at hr
      rcases hr with rfl | rfl | rfl | rfl
      · exact hamp rest heq (List.cons.inj hrest).2.symm
      · exact hlt rest heq (List.cons.inj hrest).2.symm
      · exact hgt rest heq (List.cons.inj hrest).2.symm
      · exact hquot rest heq (List.cons.inj hrest).2.symm
    have hplain : isSpecial c = false := by simp [isSpecial, hne, hc]
    rw [List.flatMap_cons, ih ht, escapeChar, replacement_of_not_special false hplain]
    rfl
  | case6 => rfl

theorem isWritten_iff (y : Text) : IsWritten y ↔ (decode y).flatMap escapeChar = y :=
  ⟨escape_decode, fun h => h ▸ isWritten_escape (decode y)⟩

instance : DecidablePred IsWritten := fun y => decidable_of_iff' _ (isWritten_iff y)

/-- **Escaping every ampersand is invertible, and what it writes is known.** Decoding gives every text back, so that no
two texts are escaped alike. A text is the escape of some text just when it has no angle bracket and no quote and each
ampersand of it starts one of the four references; then it is the escape of what it decodes to. -/
theorem decode_escapeText (probe : Probe) :
    (∀ x, decode (escapeText false probe x) = x) ∧
    Function.Injective (escapeText false probe) ∧
    (∀ y, (∃ x, escapeText false probe x = y) ↔ IsWritten y) ∧
    ∀ y, IsWritten y → escapeText false probe (decode y) = y := by
  have hdecode : ∀ x, decode (escapeText false probe x) = x := by
    intro x
    rw [escapeText_never, decode_escape]
  have hescape : ∀ y, IsWritten y → escapeText false probe (decode y) = y := by
    intro y hy
    rw [escapeText_never, escape_decode hy]
  refine ⟨hdecode, Function.LeftInverse.injective hdecode, fun y => ⟨?_, ?_⟩, hescape⟩
  · rintro ⟨x, rfl⟩
    rw [escapeText_never]
    exact isWritten_escape x
  · intro hy
    exact ⟨decode y, hescape y hy⟩

/-- A text that looks escaped twice, with two references next to each other. -/
theorem decode_escapeText_twice :
    let y := "&amp;&amp;lt; &quot;".toList
    IsWritten y ∧ decode y = "&&lt; \"".toList ∧ escapeText false .never (decode y) = y := by
  intro y
  have hy : IsWritten y := by decide
  exact ⟨hy, by decide, (decode_escapeText .never).2.2.2 y hy⟩

/-- An ampersand that starts none of the four is not written, also when it starts another reference. -/
example : ¬ IsWritten "&copy;".toList := by decide

end CommonMark.Html
