import CommonMark.Proofs.Html.Escaping

/-!
# Spelling

HTML one unit at a time: characters as a reader sees them, and tags. A text spells units when it is what they
write, up to characters of white space (`Spells`). Line ends that a writer puts in and white space that it
trims therefore leave a spelling as it is, and trimming never cuts a tag or a character reference
(`Spells.trimEnd`).
-/

namespace CommonMark

theorem Text.trimEnd_append (s t : Text) :
    Text.trimEnd (s ++ t) = if Text.trimEnd t = [] then Text.trimEnd s else s ++ Text.trimEnd t := by
  induction s with
  | nil => by_cases h : Text.trimEnd t = [] <;> simp [h, Text.trimEnd]
  | cons c s ih =>
    rw [List.cons_append, Text.trimEnd, ih]
    by_cases h : Text.trimEnd t = []
    · simp only [h, ite_true, Text.trimEnd]
    · rw [if_neg h, if_neg h]
      cases s with
      | nil =>
        obtain ⟨d, r, hr⟩ := List.exists_cons_of_ne_nil h
        rw [List.nil_append, hr]; rfl
      | cons d s => rfl

/-- Trimming leaves no white space at the end. -/
theorem Text.isBlank_getLast?_trimEnd {t : Text} {c : Char} (h : t.trimEnd.getLast? = some c) : isBlank c = false := by
  induction t with
  | nil => cases h
  | cons d t ih =>
    rw [Text.trimEnd] at h
    split at h
    · split at h
      · cases h
      · rename_i hd
        cases h
        simpa using hd
    · rename_i e r heq
      rw [heq] at ih
      exact ih (by simpa using h)

namespace Html

/-- A character of text, or a tag. -/
inductive Atom where
  | char (c : Char)
  | mark (m : Mark)

namespace Atom

def token : Atom → Token
  | char c => .text (escapeChar c)
  | mark m => .mark m

def write (a : Atom) : Text := a.token.write

/-- White space does not count, tags do. -/
def isVisible : Atom → Bool
  | char c => !isBlank c
  | mark _ => true

theorem write_ne_nil (a : Atom) : a.write ≠ [] := by
  cases a with
  | char c => exact escapeChar_ne_nil c
  | mark m => exact List.cons_ne_nil _ _

theorem trimEnd_write (a : Atom) : a.write.trimEnd = if a.isVisible then a.write else [] := by
  cases a with
  | char c =>
    rw [write, token, Token.write, trimEnd_escapeChar, isVisible]
    cases isBlank c <;> rfl
  | mark m =>
    have h : Text.trimEnd ['>'] = ['>'] := by decide
    show Text.trimEnd (('<' :: m.body) ++ ['>']) = ('<' :: m.body) ++ ['>']
    rw [Text.trimEnd_append, h, if_neg (by simp)]

end Atom

/-- Units that are the same up to white space have the same tags. -/
theorem mark_mem_of_filter_eq {as bs : List Atom} (h : bs.filter Atom.isVisible = as.filter Atom.isVisible) {m : Mark}
    (hm : .mark m ∈ bs) : .mark m ∈ as := by
  have hvisible : .mark m ∈ as.filter Atom.isVisible := h ▸ List.mem_filter.2 ⟨hm, rfl⟩
  exact (List.mem_filter.1 hvisible).1

/-- Whether a text is what some units write, up to white space between and in them. -/
def Spells (t : Text) (as : List Atom) : Prop :=
  ∃ bs : List Atom, bs.flatMap Atom.write = t ∧ bs.filter Atom.isVisible = as.filter Atom.isVisible

namespace Spells

theorem nil : Spells [] [] := ⟨[], rfl, rfl⟩

theorem append {s t : Text} {as bs : List Atom} (hs : Spells s as) (ht : Spells t bs) :
    Spells (s ++ t) (as ++ bs) := by
  obtain ⟨as', rfl, ha⟩ := hs
  obtain ⟨bs', rfl, hb⟩ := ht
  exact ⟨as' ++ bs', List.flatMap_append, by rw [List.filter_append, ha, hb, List.filter_append]⟩

theorem marks (ms : List Mark) : Spells (ms.flatMap Mark.write) (ms.map .mark) :=
  ⟨ms.map .mark, by rw [List.flatMap_map]; rfl, rfl⟩

theorem chars (t : Text) : Spells (t.flatMap escapeChar) (t.map .char) :=
  ⟨t.map .char, by rw [List.flatMap_map]; rfl, rfl⟩

theorem blank {c : Char} (h : isBlank c = true) : Spells [c] [] :=
  ⟨[.char c], by simp [Atom.write, Atom.token, Token.write, escapeChar_of_blank h], by simp [Atom.isVisible, h]⟩

/-- White space at the end goes whole characters at a time, and only where a unit is white space. -/
theorem trimEnd {t : Text} {as : List Atom} (h : Spells t as) : Spells t.trimEnd as := by
  obtain ⟨bs, rfl, hb⟩ := h
  rw [Spells, ← hb]
  clear hb
  induction bs with
  | nil => exact ⟨[], rfl, rfl⟩
  | cons b bs ih =>
    obtain ⟨bs', hw, hf⟩ := ih
    rw [List.flatMap_cons, Text.trimEnd_append, ← hw]
    cases bs' with
    | cons b' bs' =>
      have hne : (b' :: bs').flatMap Atom.write ≠ [] := by simp [Atom.write_ne_nil]
      rw [if_neg hne]
      exact ⟨b :: b' :: bs', rfl, by rw [List.filter_cons, hf, ← List.filter_cons]⟩
    | nil =>
      rw [List.flatMap_nil, if_pos rfl, Atom.trimEnd_write, List.filter_cons, ← hf]
      cases hv : b.isVisible with
      | true => exact ⟨[b], by simp, by simp [hv]⟩
      | false => exact ⟨[], rfl, rfl⟩

end Spells

end Html

end CommonMark
