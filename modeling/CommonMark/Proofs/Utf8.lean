import CommonMark.Text.Basic

/-!
# Texts as bytes

The bytes of a text in UTF-8, of which there are as many as `Text.bytes` counts (`length_utf8`). A character of ASCII is
one byte, and every byte of another character lies beyond ASCII (`le_of_mem_utf8EncodeChar`): so whoever looks for
bytes of ASCII finds the characters they stand for and nothing inside another character. No two texts have the same
bytes (`utf8_injective`), and texts are compared by the numbers of their characters as their bytes are compared
(`isOrdered_iff`): a greater character has a greater first byte, or as many bytes, whose bits are the digits of its
number.
-/

namespace CommonMark

/-! ## Characters -/

/-- A byte that was marked as one of several lies beyond ASCII. -/
theorem le_or_of_le {b mark : UInt8} (h : 0x80 ≤ mark) : 0x80 ≤ b ||| mark := by
  rw [UInt8.le_iff_toNat_le] at h ⊢
  rw [UInt8.toNat_or]
  exact Nat.le_trans h Nat.right_le_or

/-- No byte of a character beyond ASCII is in ASCII. -/
theorem le_of_mem_utf8EncodeChar {c : Char} (hc : c.utf8Size ≠ 1) {b : UInt8}
    (hb : b ∈ String.utf8EncodeChar c) : 0x80 ≤ b := by
  have hpos := c.utf8Size_pos
  have hle := c.utf8Size_le_four
  obtain h | h | h : c.utf8Size = 2 ∨ c.utf8Size = 3 ∨ c.utf8Size = 4 := by omega
  · rw [String.utf8EncodeChar_eq_cons_cons h] at hb
    simp only [List.mem_cons, List.not_mem_nil, or_false] at hb
    rcases hb with rfl | rfl <;> exact le_or_of_le (by decide)
  · rw [String.utf8EncodeChar_eq_cons_cons_cons h] at hb
    simp only [List.mem_cons, List.not_mem_nil, or_false] at hb
    rcases hb with rfl | rfl | rfl <;> exact le_or_of_le (by decide)
  · rw [String.utf8EncodeChar_eq_cons_cons_cons_cons h] at hb
    simp only [List.mem_cons, List.not_mem_nil, or_false] at hb
    rcases hb with rfl | rfl | rfl | rfl <;> exact le_or_of_le (by decide)

/-! ## The order of characters -/

/-- The digits of a number to base 64. -/
theorem digits_eq {n : Nat} (h : n < 0x200000) :
    n = 262144 * (n / 262144 % 8) + 4096 * (n / 4096 % 64) + 64 * (n / 64 % 64) + n % 64 := by omega

/-- Numbers are compared by the first digit in which they differ. -/
theorem digits_lt {a b c d a' b' c' d' : Nat} (hb : b' < 64) (hc : c' < 64) (hd : d' < 64)
    (h : 262144 * a + 4096 * b + 64 * c + d < 262144 * a' + 4096 * b' + 64 * c' + d') :
    a < a' ∨ a = a' ∧ (b < b' ∨ b = b' ∧ (c < c' ∨ c = c' ∧ d < d')) := by omega

/-- A character of a greater number has greater bytes, whatever follows. -/
theorem utf8EncodeChar_append_lt {c d : Char} (h : c.toNat < d.toNat) (xs ys : List UInt8) :
    String.utf8EncodeChar c ++ xs < String.utf8EncodeChar d ++ ys := by
  have hvalid : d.val.toNat < 0x200000 := by
    have := d.valid
    simp only [UInt32.isValidChar, Nat.isValidChar] at this
    omega
  simp only [Char.toNat] at h
  simp only [String.utf8EncodeChar]
  generalize c.val.toNat = m at h
  generalize d.val.toNat = n at h hvalid
  have hlt := h
  rw [digits_eq hvalid, digits_eq (Nat.lt_trans h hvalid)] at hlt
  -- The digits decide only where both have four bytes: the other sizes differ in their first byte, or are small
  -- enough to be compared at once.
  have hdigits := digits_lt (Nat.mod_lt (n / 4096) (by decide)) (Nat.mod_lt (n / 64) (by decide))
    (Nat.mod_lt n (by decide)) hlt
  clear hlt
  repeat' split
  all_goals
    simp only [List.cons_append, List.nil_append, List.cons_lt_cons_iff, UInt8.lt_iff_toNat_lt, ← UInt8.toNat_inj,
      UInt8.toNat_ofNat']
    simp (disch := omega) only [Nat.reducePow, Nat.mod_eq_of_lt]
    omega

namespace Text

/-! ## Texts -/

/-- The bytes of a text in UTF-8. -/
def utf8 (t : Text) : List UInt8 := t.flatMap String.utf8EncodeChar

@[simp] theorem utf8_nil : utf8 [] = [] := rfl

@[simp] theorem utf8_cons (c : Char) (t : Text) : utf8 (c :: t) = String.utf8EncodeChar c ++ utf8 t :=
  List.flatMap_cons

@[simp] theorem utf8_append (s t : Text) : utf8 (s ++ t) = utf8 s ++ utf8 t := List.flatMap_append

@[simp] theorem length_utf8 (t : Text) : (utf8 t).length = bytes t := by
  induction t with
  | nil => rfl
  | cons c t ih => rw [utf8_cons, List.length_append, String.length_utf8EncodeChar, ih, bytes_cons]

/-- The bytes of a text are those of the string of its characters. -/
theorem data_toByteArray_ofList (t : Text) : (String.ofList t).toByteArray.data.toList = utf8 t :=
  List.toList_data_toByteArray

theorem utf8_injective : Function.Injective utf8 := by
  intro s t h
  rw [← data_toByteArray_ofList, ← data_toByteArray_ofList] at h
  have hbytes : (String.ofList s).toByteArray = (String.ofList t).toByteArray :=
    ByteArray.ext (Array.toList_inj.1 h)
  exact String.ofList_injective (String.toByteArray_inj.1 hbytes)

/-- Texts are ordered as their bytes are. -/
theorem isOrdered_iff {s t : Text} : isOrdered s t = true ↔ utf8 s ≤ utf8 t := by
  induction s, t using isOrdered.induct with
  | case1 t => simp [isOrdered]
  | case2 c s =>
    have hne : String.utf8EncodeChar c ≠ [] := by
      rw [← List.length_pos_iff, String.length_utf8EncodeChar]
      exact c.utf8Size_pos
    simp [isOrdered, List.le_nil, hne]
  | case3 c s d t ih =>
    rw [isOrdered, utf8_cons, utf8_cons]
    rcases Nat.lt_trichotomy c.toNat d.toNat with h | h | h
    · simp [h, List.le_of_lt (utf8EncodeChar_append_lt h _ _)]
    · obtain rfl := Char.toNat_inj.1 h
      simp only [Nat.lt_irrefl, decide_false, decide_true, Bool.false_or, Bool.true_and, ih]
      refine ⟨List.append_left_le, fun hle => ?_⟩
      exact List.not_lt.1 fun hlt => hle (List.append_left_lt hlt)
    · have hne : c ≠ d := fun heq => Nat.lt_irrefl _ (heq ▸ h)
      simp [hne, Nat.lt_asymm h, utf8EncodeChar_append_lt h]

end Text

end CommonMark
