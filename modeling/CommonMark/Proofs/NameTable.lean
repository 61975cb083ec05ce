import CommonMark.Proofs.Reference
import CommonMark.Proofs.Utf8

/-!
# The table of names

The table of names is in the order of their bytes (`isIncreasing_nameBytes`). So a search that halves the part of the
table in which a name can be finds the listed names and no others (`search_nameBytes`). Every name is a letter and 1 to
31 letters and digits (`shape_of_isNamed`).
-/

namespace CommonMark

/-! ## Searching by halves -/

section

variable {α : Type} [Ord α]

/-- Whether each value comes before the next. -/
def isIncreasing : List α → Bool
  | x :: y :: xs => compare x y == .lt && isIncreasing (y :: xs)
  | _ => true

theorem pairwise_of_isIncreasing [Std.TransOrd α] {xs : List α} (h : isIncreasing xs = true) :
    xs.Pairwise fun x y => compare x y = .lt := by
  induction xs with
  | nil => exact .nil
  | cons x xs ih =>
    cases xs with
    | nil => exact List.pairwise_singleton ..
    | cons y xs =>
      simp only [isIncreasing, Bool.and_eq_true, beq_iff_eq] at h
      have hrest := ih h.2
      refine .cons (fun z hz => ?_) hrest
      rcases List.mem_cons.1 hz with rfl | hz
      · exact h.1
      · exact Std.TransCmp.lt_trans h.1 (List.rel_of_pairwise_cons hrest hz)

/-- Whether values hold one that is looked for in the middle, and then in the half before or behind it. -/
def search (x : α) (xs : List α) : Bool :=
  match h : xs.drop (xs.length / 2) with
  | [] => false
  | y :: ys =>
    have hlength : xs.length - xs.length / 2 = ys.length + 1 := by
      rw [← List.length_drop, h, List.length_cons]
    match compare x y with
    | .eq => true
    | .lt => search x (xs.take (xs.length / 2))
    | .gt => search x ys
termination_by xs.length
decreasing_by
  · rw [List.length_take]
    omega
  · omega

/-- **A search by halves finds what is there** when the values are in order. -/
theorem search_eq_true_iff [Std.TransOrd α] [Std.LawfulEqOrd α] (x : α) {xs : List α}
    (hxs : xs.Pairwise fun x y => compare x y = .lt) : search x xs = true ↔ x ∈ xs := by
  have hirrefl : ∀ a : α, compare a a ≠ .lt := fun a => by simp [Std.ReflOrd.compare_self]
  fun_induction search x xs with
  | case1 xs h =>
    have hlength := congrArg List.length h
    rw [List.length_drop, List.length_nil] at hlength
    have hnil : xs = [] := List.eq_nil_of_length_eq_zero (by omega)
    simp [hnil]
  | case2 xs y ys h _ hcmp =>
    obtain rfl := Std.LawfulEqOrd.compare_eq_iff_eq.1 hcmp
    have hmem : x ∈ xs.drop (xs.length / 2) := by rw [h]; exact List.mem_cons_self
    simp [List.mem_of_mem_drop hmem]
  | case3 xs y ys h _ hcmp ih =>
    have hsplit : xs.take (xs.length / 2) ++ y :: ys = xs := by rw [← h, List.take_append_drop]
    obtain ⟨hbefore, hbehind, -⟩ := List.pairwise_append.1 (hsplit.symm ▸ hxs)
    refine (ih hbefore).trans ⟨List.mem_of_mem_take, fun hx => ?_⟩
    rw [← hsplit] at hx
    rcases List.mem_append.1 hx with hx | hx
    · exact hx
    · rcases List.mem_cons.1 hx with rfl | hx
      · exact absurd hcmp (hirrefl x)
      · exact absurd (Std.TransCmp.lt_trans hcmp (List.rel_of_pairwise_cons hbehind hx)) (hirrefl x)
  | case4 xs y ys h _ hcmp ih =>
    have hsplit : xs.take (xs.length / 2) ++ y :: ys = xs := by rw [← h, List.take_append_drop]
    obtain ⟨-, hbehind, hacross⟩ := List.pairwise_append.1 (hsplit.symm ▸ hxs)
    refine (ih hbehind.of_cons).trans ⟨?_, ?_⟩
    · intro hx
      rw [← hsplit]
      exact List.mem_append_right _ (List.mem_cons_of_mem y hx)
    · intro hx
      rw [← hsplit] at hx
      rcases List.mem_append.1 hx with hx | hx
      · have hlt := hacross x hx y List.mem_cons_self
        rw [hcmp] at hlt
        cases hlt
      · rcases List.mem_cons.1 hx with rfl | hx
        · rw [Std.ReflOrd.compare_self] at hcmp
          cases hcmp
        · exact hx

end

namespace CharacterReference

/-! ## Names as bytes -/

/-- The names of the table as bytes, in its order. -/
def nameBytes : List (List UInt8) := names.map fun e => e.1.toByteArray.data.toList

theorem isIncreasing_nameBytes : isIncreasing nameBytes = true := by decide +kernel

theorem mem_nameBytes_iff (name : Text) : name.utf8 ∈ nameBytes ↔ isNamed name = true := by
  simp only [nameBytes, isNamed, List.mem_map, List.any_eq_true, beq_iff_eq]
  refine exists_congr fun e => and_congr_right fun _ => ?_
  rw [← Text.data_toByteArray_ofList, Array.toList_inj, ← ByteArray.ext_iff, String.toByteArray_inj]

/-- **Searching by halves finds just the listed names.** -/
theorem search_nameBytes (name : Text) : search name.utf8 nameBytes = isNamed name := by
  rw [Bool.eq_iff_iff, search_eq_true_iff _ (pairwise_of_isIncreasing isIncreasing_nameBytes), mem_nameBytes_iff]

/-! ## The shape of names -/

/-- Whether bytes are a letter and then 1 to 31 letters and digits. -/
def isNameShape : List UInt8 → Bool
  | [] => false
  | b :: bs =>
    isLetter (Char.ofUInt8 b) && bs.all (fun b => isNameChar (Char.ofUInt8 b)) && decide (1 ≤ bs.length) &&
      decide (bs.length ≤ 31)

theorem all_isNameShape : nameBytes.all isNameShape = true := by decide +kernel

theorem utf8EncodeChar_ofUInt8 {b : UInt8} (h : isNameChar (Char.ofUInt8 b) = true) :
    String.utf8EncodeChar (Char.ofUInt8 b) = [b] := by
  rw [String.utf8EncodeChar_eq_singleton (utf8Size_of_isNameChar h)]
  show [b.toUInt32.toUInt8] = [b]
  rw [UInt8.toUInt8_toUInt32]

/-- Bytes of letters and digits are those of the characters with their numbers. -/
theorem utf8_map_ofUInt8 {bs : List UInt8} (h : ∀ b ∈ bs, isNameChar (Char.ofUInt8 b) = true) :
    Text.utf8 (bs.map Char.ofUInt8) = bs := by
  induction bs with
  | nil => rfl
  | cons b bs ih =>
    rw [List.map_cons, Text.utf8_cons, utf8EncodeChar_ofUInt8 (h b List.mem_cons_self),
      ih fun c hc => h c (List.mem_cons_of_mem b hc)]
    rfl

/-- **A listed name is a letter and 1 to 31 letters and digits.** -/
theorem shape_of_isNamed {name : Text} (h : isNamed name = true) :
    ∃ c rest, name = c :: rest ∧ isLetter c = true ∧ IsNumber isNameChar 31 rest := by
  rw [← mem_nameBytes_iff] at h
  have hshape := List.all_eq_true.1 all_isNameShape _ h
  generalize hbytes : name.utf8 = bs at hshape
  cases bs with
  | nil => cases hshape
  | cons b bs =>
    simp only [isNameShape, Bool.and_eq_true, List.all_eq_true, decide_eq_true_eq] at hshape
    obtain ⟨⟨⟨hletter, hrest⟩, hmin⟩, hmax⟩ := hshape
    have hall : ∀ d ∈ b :: bs, isNameChar (Char.ofUInt8 d) = true := by
      intro d hd
      rcases List.mem_cons.1 hd with rfl | hd
      · exact isNameChar_of_isLetter hletter
      · exact hrest d hd
    have hname : name = (b :: bs).map Char.ofUInt8 := by
      refine Text.utf8_injective ?_
      rw [hbytes, utf8_map_ofUInt8 hall]
    refine ⟨Char.ofUInt8 b, bs.map Char.ofUInt8, hname, hletter, ?_, ?_, by rwa [List.length_map]⟩
    · intro c hc
      obtain ⟨d, hd, rfl⟩ := List.mem_map.1 hc
      exact hrest d hd
    · intro hnil
      rw [List.map_eq_nil_iff.1 hnil] at hmin
      exact absurd hmin (by decide)

end CharacterReference

end CommonMark
