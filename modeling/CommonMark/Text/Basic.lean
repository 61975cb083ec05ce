/-!
# Texts and byte offsets

A text is a list of characters. Offsets and lengths count UTF-8 bytes, so an offset may fall inside a
character: `drop?` and `take?` answer `none` there and beyond the end. Main statement: a window shows the
middle of a text cut in three (`slice?_eq_some_iff`).
-/

namespace CommonMark

/-- Characters in reading order. -/
abbrev Text := List Char

namespace Text

/-- Length in UTF-8 bytes. -/
def bytes : Text → Nat
  | [] => 0
  | c :: t => c.utf8Size + bytes t

/-- What follows the first `n` bytes. -/
def drop? : Nat → Text → Option Text
  | 0, t => some t
  | _ + 1, [] => none
  | n + 1, c :: t => if c.utf8Size ≤ n + 1 then drop? (n + 1 - c.utf8Size) t else none

/-- The first `n` bytes. -/
def take? : Nat → Text → Option Text
  | 0, _ => some []
  | _ + 1, [] => none
  | n + 1, c :: t => if c.utf8Size ≤ n + 1 then (take? (n + 1 - c.utf8Size) t).map (c :: ·) else none

/-- The `length` bytes from byte `start`. -/
def slice? (start length : Nat) (t : Text) : Option Text :=
  (drop? start t).bind (take? length)

/-- Whether byte `n` is where a character starts, or the end. -/
def isBoundary (n : Nat) (t : Text) : Bool := (drop? n t).isSome

/-- Byte offset of the first occurrence of `part`. -/
def find? (part : Text) : Text → Option Nat
  | [] => if part.isEmpty then some 0 else none
  | c :: t => if part.isPrefixOf (c :: t) then some 0 else (find? part t).map (c.utf8Size + ·)

/-- How many characters stand before the first occurrence of `part`. -/
def indexOf? (part : Text) : Text → Option Nat
  | [] => if part.isEmpty then some 0 else none
  | c :: t => if part.isPrefixOf (c :: t) then some 0 else (indexOf? part t).map (· + 1)

/-- Whether a text comes before another or is the same, by the numbers of their characters; this is also the
order of their bytes. -/
def isOrdered : Text → Text → Bool
  | [], _ => true
  | _ :: _, [] => false
  | c :: s, d :: t => c.toNat < d.toNat || (c = d && isOrdered s t)

@[simp] theorem bytes_nil : bytes [] = 0 := rfl

@[simp] theorem bytes_cons (c : Char) (t : Text) : bytes (c :: t) = c.utf8Size + bytes t := rfl

@[simp] theorem bytes_append (s t : Text) : bytes (s ++ t) = bytes s + bytes t := by
  induction s with
  | nil => simp
  | cons c s ih => simp [ih, Nat.add_assoc]

theorem bytes_eq_zero {t : Text} : bytes t = 0 ↔ t = [] := by
  cases t with
  | nil => simp
  | cons c t => simp [Nat.ne_of_gt c.utf8Size_pos]

/-- The text before an offset is cut off as it was put there. -/
theorem drop?_bytes_append (s t : Text) : drop? (bytes s) (s ++ t) = some t := by
  induction s with
  | nil => simp [drop?]
  | cons c s ih =>
    obtain ⟨k, hk⟩ : ∃ k, bytes (c :: s) = k + 1 :=
      ⟨bytes (c :: s) - 1, by have := c.utf8Size_pos; simp only [bytes_cons]; omega⟩
    rw [hk, List.cons_append, drop?, ← hk]
    simp [ih]

/-- The text before an offset is taken as it was put there. -/
theorem take?_bytes_append (s t : Text) : take? (bytes s) (s ++ t) = some s := by
  induction s with
  | nil => simp [take?]
  | cons c s ih =>
    obtain ⟨k, hk⟩ : ∃ k, bytes (c :: s) = k + 1 :=
      ⟨bytes (c :: s) - 1, by have := c.utf8Size_pos; simp only [bytes_cons]; omega⟩
    rw [hk, List.cons_append, take?, ← hk]
    simp [ih]

/-- A text taken to its end is the text. -/
theorem take?_bytes (t : Text) : take? (bytes t) t = some t := by
  simpa using take?_bytes_append t []

/-- `drop?` finds the cuts of a text by the length of their first part. -/
theorem drop?_eq_some_iff {n : Nat} {t r : Text} :
    drop? n t = some r ↔ ∃ s, t = s ++ r ∧ bytes s = n := by
  constructor
  · intro h
    induction n, t using drop?.induct with
    | case1 t => exact ⟨[], by simp_all [drop?]⟩
    | case2 n => simp [drop?] at h
    | case3 n c t hc ih =>
      rw [drop?, if_pos hc] at h
      obtain ⟨s, rfl, hs⟩ := ih h
      exact ⟨c :: s, rfl, by simp [hs]; omega⟩
    | case4 n c t hc => simp [drop?, hc] at h
  · rintro ⟨s, rfl, rfl⟩
    exact drop?_bytes_append s r

/-- `take?` finds the beginnings of a text by their length. -/
theorem take?_eq_some_iff {n : Nat} {t s : Text} :
    take? n t = some s ↔ ∃ r, t = s ++ r ∧ bytes s = n := by
  constructor
  · intro h
    induction n, t using take?.induct generalizing s with
    | case1 t => exact ⟨t, by simp_all [take?]⟩
    | case2 n => simp [take?] at h
    | case3 n c t hc ih =>
      rw [take?, if_pos hc] at h
      obtain ⟨u, hu, rfl⟩ := Option.map_eq_some_iff.1 h
      obtain ⟨r, rfl, hr⟩ := ih hu
      exact ⟨r, rfl, by simp [hr]; omega⟩
    | case4 n c t hc => simp [take?, hc] at h
  · rintro ⟨r, rfl, rfl⟩
    exact take?_bytes_append s r

/-- A window shows the middle of a text cut in three. -/
theorem slice?_eq_some_iff {start length : Nat} {t w : Text} :
    slice? start length t = some w ↔
      ∃ before after, t = before ++ w ++ after ∧ bytes before = start ∧ bytes w = length := by
  constructor
  · intro h
    obtain ⟨r, hr, hw⟩ := Option.bind_eq_some_iff.1 h
    obtain ⟨before, rfl, hb⟩ := drop?_eq_some_iff.1 hr
    obtain ⟨after, rfl, hl⟩ := take?_eq_some_iff.1 hw
    exact ⟨before, after, by simp, hb, hl⟩
  · rintro ⟨before, after, rfl, rfl, rfl⟩
    simp [slice?, List.append_assoc, drop?_bytes_append, take?_bytes_append]

end Text

end CommonMark
