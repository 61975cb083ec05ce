import CommonMark.Proofs.Html.Joined
import CommonMark.Proofs.NameTable
import CommonMark.Proofs.Windows

/-!
# What the probe recognises

A probe can look for a reference with a pattern, and then look its name up in the table by halves (`Probe.byPattern`).
Whatever finds the matches of the pattern, this is what `Probe.html5` does on every window of a buffer
(`Probe.byPattern_eq`), because at most one match starts a text (`PatternMatch.unique`) and no listed name is longer or
shorter than the pattern allows. So the answer is the length of the reference that starts the window, if one does, and
zero for a window that leaves the buffer or cuts a character. A window that holds the reference may end anywhere behind
it (`Probe.html5_recognises`).
-/

namespace CommonMark

namespace CharacterReference

/-! ## The grammar -/

/-- How a reference is written, with the names as they are listed. -/
inductive IsReference : Text → Prop
  | decimal {ds : Text} (h : IsNumber isDecimal 7 ds) : IsReference ('&' :: '#' :: (ds ++ [';']))
  | hexadecimal {x : Char} {ds : Text} (hx : x = 'x' ∨ x = 'X') (h : IsNumber isHexadecimal 6 ds) :
    IsReference ('&' :: '#' :: x :: (ds ++ [';']))
  | named {name : String} {points : List Nat} (h : (name, points) ∈ names) :
    IsReference ('&' :: (name.toList ++ [';']))

theorem isNamed_iff {name : Text} : isNamed name = true ↔ ∃ points, (String.ofList name, points) ∈ names := by
  simp only [isNamed, List.any_eq_true, beq_iff_eq]
  constructor
  · rintro ⟨⟨listed, points⟩, hmem, rfl⟩
    exact ⟨points, hmem⟩
  · rintro ⟨points, hmem⟩
    exact ⟨_, hmem, rfl⟩

/-- A name that is listed has no other characters than letters and digits. -/
theorem isNameChar_of_isNamed {name : Text} (h : isNamed name = true) : ∀ c ∈ name, isNameChar c = true := by
  obtain ⟨c, rest, rfl, hc, hrest⟩ := shape_of_isNamed h
  intro d hd
  rcases List.mem_cons.1 hd with rfl | hd
  · exact isNameChar_of_isLetter hc
  · exact hrest.digits d hd

theorem isReference_iff {s : Text} : IsReference s ↔ ∃ b, Spells b s := by
  constructor
  · intro h
    cases h with
    | decimal h => exact ⟨_, .decimal h⟩
    | hexadecimal hx h => exact ⟨_, .hexadecimal hx h⟩
    | @named name points h =>
      have hnamed : isNamed name.toList = true := isNamed_iff.2 ⟨points, by rwa [String.ofList_toList]⟩
      exact ⟨_, .named (isNameChar_of_isNamed hnamed) hnamed⟩
  · rintro ⟨b, h⟩
    cases h with
    | decimal h => exact .decimal h
    | hexadecimal hx h => exact .hexadecimal hx h
    | @named name _ h =>
      obtain ⟨points, hmem⟩ := isNamed_iff.1 h
      have hreference := IsReference.named hmem
      rwa [String.toList_ofList] at hreference

/-! ## The pattern -/

/-- A letter is neither what starts a number nor what ends a reference. -/
theorem ne_of_isLetter {c : Char} (h : isLetter c = true) : c ≠ '#' ∧ c ≠ ';' := by
  constructor
  · rintro rfl
    exact absurd h (by decide)
  · rintro rfl
    exact absurd h (by decide)

/-- What the pattern `&(?:#[xX][0-9a-fA-F]{1,6}|#[0-9]{1,7}|([A-Za-z][A-Za-z0-9]{1,31}));` matches, and what its group
holds then. -/
inductive PatternMatch : Text → Option Text → Prop
  | hexadecimal {x : Char} {ds : Text} (hx : x = 'x' ∨ x = 'X') (h : IsNumber isHexadecimal 6 ds) :
    PatternMatch ('&' :: '#' :: x :: (ds ++ [';'])) none
  | decimal {ds : Text} (h : IsNumber isDecimal 7 ds) : PatternMatch ('&' :: '#' :: (ds ++ [';'])) none
  | name {c : Char} {rest : Text} (hc : isLetter c = true) (h : IsNumber isNameChar 31 rest) :
    PatternMatch ('&' :: c :: (rest ++ [';'])) (some (c :: rest))

/-- A match ends with its first semicolon. -/
theorem PatternMatch.body {m : Text} {group : Option Text} (h : PatternMatch m group) :
    ∃ body, m = body ++ [';'] ∧ ∀ c ∈ body, c ≠ ';' := by
  have hname : ∀ {t : Text}, (∀ c ∈ t, isNameChar c = true) → ∀ c ∈ t, c ≠ ';' := by
    rintro t ht _ hc rfl
    exact absurd (ht ';' hc) (by decide)
  cases h with
  | @hexadecimal x ds hx h =>
    have hds := hname fun c hc => isNameChar_of_isHexadecimal (h.digits c hc)
    refine ⟨'&' :: '#' :: x :: ds, rfl, ?_⟩
    rcases hx with rfl | rfl <;> simpa using hds
  | @decimal ds h =>
    have hds := hname fun c hc => isNameChar_of_isDecimal (h.digits c hc)
    exact ⟨'&' :: '#' :: ds, rfl, by simpa using hds⟩
  | @name c rest hc h =>
    have hrest := hname h.digits
    exact ⟨'&' :: c :: rest, rfl, by simpa using ⟨(ne_of_isLetter hc).2, hrest⟩⟩

/-- What the group of a match holds: nothing behind a number sign, else all between the ampersand and the semicolon. -/
def groupOf : Text → Option Text
  | '&' :: '#' :: _ => none
  | t => some t.tail.dropLast

theorem PatternMatch.group_eq {m : Text} {group : Option Text} (h : PatternMatch m group) : group = groupOf m := by
  cases h with
  | hexadecimal => rfl
  | decimal => rfl
  | @name c rest hc =>
    have hinner : (c :: rest ++ [';']).dropLast = c :: rest := List.dropLast_concat
    rw [List.cons_append] at hinner
    simp [groupOf, (ne_of_isLetter hc).1, hinner]

/-- **At most one match starts a text**, so that neither the order of the alternatives nor greed plays a part. -/
theorem PatternMatch.unique {w m m' : Text} {group group' : Option Text} (h : PatternMatch m group)
    (h' : PatternMatch m' group') (hm : m <+: w) (hm' : m' <+: w) : m = m' ∧ group = group' := by
  obtain ⟨body, rfl, hbody⟩ := h.body
  obtain ⟨body', rfl, hbody'⟩ := h'.body
  obtain ⟨rest, rfl⟩ := hm
  obtain ⟨rest', hsplit⟩ := hm'
  have htake : ∀ {body rest : Text}, (∀ c ∈ body, c ≠ ';') →
      (body ++ [';'] ++ rest).takeWhile (fun c => decide (c ≠ ';')) = body := by
    intro body rest hbody
    rw [List.append_assoc]
    exact (run_append (fun c hc => decide_eq_true (hbody c hc)) (by decide) rest).1
  have heq : body = body' := by rw [← htake hbody, ← htake hbody', hsplit]
  subst heq
  exact ⟨rfl, h.group_eq.trans h'.group_eq.symm⟩

/-- References are the matches whose name, if there is one, is listed. -/
theorem spells_iff_patternMatch {s : Text} :
    (∃ b, Spells b s) ↔ ∃ group, PatternMatch s group ∧ group.all isNamed = true := by
  constructor
  · rintro ⟨b, h⟩
    cases h with
    | decimal h => exact ⟨none, .decimal h, rfl⟩
    | hexadecimal hx h => exact ⟨none, .hexadecimal hx h, rfl⟩
    | named _ h =>
      obtain ⟨c, rest, rfl, hc, hrest⟩ := shape_of_isNamed h
      exact ⟨some (c :: rest), .name hc hrest, h⟩
  · rintro ⟨group, h, hnamed⟩
    cases h with
    | hexadecimal hx h => exact ⟨_, .hexadecimal hx h⟩
    | decimal h => exact ⟨_, .decimal h⟩
    | name => exact ⟨_, .named (isNameChar_of_isNamed hnamed) hnamed⟩

/-- At most one reference starts a text. -/
theorem IsReference.unique {s s' w : Text} (h : IsReference s) (h' : IsReference s') (hs : s <+: w) (hs' : s' <+: w) :
    s = s' := by
  obtain ⟨group, hmatch, -⟩ := spells_iff_patternMatch.1 (isReference_iff.1 h)
  obtain ⟨group', hmatch', -⟩ := spells_iff_patternMatch.1 (isReference_iff.1 h')
  exact (hmatch.unique hmatch' hs hs').1

/-! ## Matchers -/

/-- Whether a matcher finds a match of the pattern at the start of a text, with its group, whenever there is one. -/
structure FollowsPattern (find : Text → Option (Text × Option Text)) : Prop where
  sound : ∀ {w m group}, find w = some (m, group) → PatternMatch m group ∧ m <+: w
  complete : ∀ {w m group}, PatternMatch m group → m <+: w → (find w).isSome = true

/-- A matcher that reads the text once. -/
def firstMatch : Text → Option (Text × Option Text)
  | '&' :: '#' :: x :: t =>
    if x = 'x' ∨ x = 'X' then
      (digits? isHexadecimal 6 t).map fun ds => ('&' :: '#' :: x :: (ds ++ [';']), none)
    else (digits? isDecimal 7 (x :: t)).map fun ds => ('&' :: '#' :: (ds ++ [';']), none)
  | '&' :: c :: t =>
    if isLetter c then (digits? isNameChar 31 t).map fun rest => ('&' :: c :: (rest ++ [';']), some (c :: rest))
    else none
  | _ => none

theorem firstMatch_followsPattern : FollowsPattern firstMatch where
  sound := by
    intro w m group h
    unfold firstMatch at h
    split at h
    · split at h
      · rename_i hx
        obtain ⟨ds, hds, heq⟩ := Option.map_eq_some_iff.1 h
        cases heq
        obtain ⟨rest, rfl, hnumber⟩ := (digits?_eq_some_iff rfl).1 hds
        exact ⟨.hexadecimal hx hnumber, rest, by simp⟩
      · obtain ⟨ds, hds, heq⟩ := Option.map_eq_some_iff.1 h
        cases heq
        obtain ⟨rest, hrest, hnumber⟩ := (digits?_eq_some_iff rfl).1 hds
        exact ⟨.decimal hnumber, rest, by simp [hrest]⟩
    · split at h
      · rename_i hc
        obtain ⟨rest, hrest, heq⟩ := Option.map_eq_some_iff.1 h
        cases heq
        obtain ⟨after, rfl, hnumber⟩ := (digits?_eq_some_iff rfl).1 hrest
        exact ⟨.name hc hnumber, after, by simp⟩
      · cases h
    · cases h
  complete := by
    rintro w m group h ⟨after, rfl⟩
    cases h with
    | @hexadecimal x ds hx h =>
      have hds : digits? isHexadecimal 6 (ds ++ ';' :: after) = some ds := (digits?_eq_some_iff rfl).2 ⟨after, rfl, h⟩
      simp [firstMatch, hx, hds]
    | @decimal ds h =>
      have hds : digits? isDecimal 7 (ds ++ ';' :: after) = some ds := (digits?_eq_some_iff rfl).2 ⟨after, rfl, h⟩
      obtain ⟨d, ds, rfl⟩ := List.exists_cons_of_ne_nil h.ne_nil
      have hd : ¬ (d = 'x' ∨ d = 'X') := by
        have hdecimal := h.digits d List.mem_cons_self
        rintro (rfl | rfl) <;> exact absurd hdecimal (by decide)
      rw [List.cons_append] at hds
      simp [firstMatch, hd, hds]
    | @name c rest hc h =>
      have hrest : digits? isNameChar 31 (rest ++ ';' :: after) = some rest :=
        (digits?_eq_some_iff rfl).2 ⟨after, rfl, h⟩
      simp [firstMatch, (ne_of_isLetter hc).1, hc, hrest]

/-- The length of the reference that a matcher finds at the start of a window, with its name searched in the table. -/
def lengthBy (find : Text → Option (Text × Option Text)) (w : Text) : Nat :=
  match find w with
  | none => 0
  | some (m, group) => if group.all fun name => search name.utf8 nameBytes then m.bytes else 0

/-- What a matcher and the search find is the reference that starts the window. -/
theorem lengthBy_eq {find : Text → Option (Text × Option Text)} (hfind : FollowsPattern find) (w : Text) :
    lengthBy find w = (read? w).elim 0 (·.length) := by
  rw [lengthBy]
  simp only [search_nameBytes]
  cases hw : find w with
  | none =>
    -- a reference would be a match
    have hnone : read? w = none := by
      refine Option.eq_none_iff_forall_ne_some.2 fun b hb => ?_
      obtain ⟨s, rest, rfl, hs⟩ := read?_eq_some_iff.1 hb
      obtain ⟨group, hmatch, -⟩ := spells_iff_patternMatch.1 ⟨b, hs⟩
      have hsome := hfind.complete hmatch (List.prefix_append s rest)
      rw [hw] at hsome
      cases hsome
    rw [hnone]
    rfl
  | some found =>
    obtain ⟨m, group⟩ := found
    obtain ⟨hmatch, hprefix⟩ := hfind.sound hw
    by_cases hnamed : group.all isNamed = true
    · obtain ⟨b, hb⟩ := spells_iff_patternMatch.2 ⟨group, hmatch, hnamed⟩
      obtain ⟨rest, rfl⟩ := hprefix
      rw [read?_of_spells hb rest, Option.elim_some, ← bytes_of_spells hb]
      exact if_pos hnamed
    · -- a reference would be this match, and its name would be listed
      have hnone : read? w = none := by
        refine Option.eq_none_iff_forall_ne_some.2 fun b hb => ?_
        obtain ⟨s, rest, rfl, hs⟩ := read?_eq_some_iff.1 hb
        obtain ⟨group', hmatch', hnamed'⟩ := spells_iff_patternMatch.1 ⟨b, hs⟩
        obtain ⟨-, rfl⟩ := hmatch.unique hmatch' hprefix (List.prefix_append s rest)
        exact hnamed hnamed'
      rw [hnone]
      exact if_neg hnamed

end CharacterReference

namespace Probe

open CharacterReference

/-! ## The probe -/

/-- Recognises references by a matcher of the pattern and a search in the table of names. Positions are numbers of 64
bits. -/
def byPattern (find : Text → Option (Text × Option Text)) : Probe := fun buffer position remaining =>
  if UInt64.size ≤ position + remaining then 0 else (buffer.slice? position remaining).elim 0 (lengthBy find)

/-- **The pattern and the search recognise what `html5` does** in a buffer whose offsets have 64 bits. -/
theorem byPattern_eq {find : Text → Option (Text × Option Text)} (hfind : FollowsPattern find) {buffer : Text}
    (hbuffer : buffer.bytes < UInt64.size) (position remaining : Nat) :
    byPattern find buffer position remaining = html5 buffer position remaining := by
  rw [byPattern, html5]
  cases hslice : buffer.slice? position remaining with
  | none => exact ite_self ..
  | some w =>
    have hstop := (Text.isSome_slice?_iff.1 (Option.isSome_of_eq_some hslice)).2
    have hle := Text.le_bytes_of_isBoundary hstop
    rw [if_neg (by omega)]
    exact lengthBy_eq hfind w

/-- What starts a window with a reference is the reference alone. -/
theorem html5_eq_iff {buffer w : Text} {position remaining : Nat} (hslice : buffer.slice? position remaining = some w)
    {n : Nat} (hn : 0 < n) :
    html5 buffer position remaining = n ↔ ∃ s, s <+: w ∧ IsReference s ∧ Text.bytes s = n := by
  rw [Html.html5_of_slice? hslice]
  constructor
  · intro h
    cases hread : read? w with
    | none =>
      rw [hread, Option.elim_none] at h
      omega
    | some b =>
      obtain ⟨s, rest, rfl, hs⟩ := read?_eq_some_iff.1 hread
      refine ⟨s, List.prefix_append s rest, isReference_iff.2 ⟨b, hs⟩, ?_⟩
      rw [bytes_of_spells hs, ← h, hread, Option.elim_some]
  · rintro ⟨s, ⟨rest, rfl⟩, hs, rfl⟩
    obtain ⟨b, hb⟩ := isReference_iff.1 hs
    rw [read?_of_spells hb rest, Option.elim_some, bytes_of_spells hb]

/-! ## Windows -/

/-- A window that ends beyond the buffer or cuts a character holds no reference. -/
theorem html5_of_not_isBoundary {buffer : Text} {position remaining : Nat}
    (h : ¬ (buffer.isBoundary position = true ∧ buffer.isBoundary (position + remaining) = true)) :
    html5 buffer position remaining = 0 := by
  rw [← Text.isSome_slice?_iff, Option.not_isSome_iff_eq_none] at h
  rw [html5, h]

/-- A reference does not go over the end of its window. -/
theorem html5_le (buffer : Text) (position remaining : Nat) : html5 buffer position remaining ≤ remaining := by
  by_cases hread : buffer.isBoundary position = true ∧ buffer.isBoundary (position + remaining) = true
  · obtain ⟨w, hslice⟩ := Option.isSome_iff_exists.1 (Text.isSome_slice?_iff.2 hread)
    rcases Nat.eq_zero_or_pos (html5 buffer position remaining) with hzero | hpos
    · rw [hzero]
      exact Nat.zero_le remaining
    · obtain ⟨s, ⟨rest, rfl⟩, -, hbytes⟩ := (html5_eq_iff hslice hpos).1 rfl
      obtain ⟨-, -, -, -, hw⟩ := Text.slice?_eq_some_iff.1 hslice
      rw [Text.bytes_append] at hw
      omega
  · rw [html5_of_not_isBoundary hread]
    exact Nat.zero_le remaining

/-- A longer window that can be read is answered alike, once a reference is found. -/
theorem html5_of_le {buffer : Text} {position remaining larger : Nat} (hle : remaining ≤ larger)
    (hstop : buffer.isBoundary (position + larger) = true) (hpos : 0 < html5 buffer position remaining) :
    html5 buffer position larger = html5 buffer position remaining := by
  have hread : buffer.isBoundary position = true ∧ buffer.isBoundary (position + remaining) = true := by
    by_contra h
    rw [html5_of_not_isBoundary h] at hpos
    exact Nat.lt_irrefl 0 hpos
  obtain ⟨w, hslice⟩ := Option.isSome_iff_exists.1 (Text.isSome_slice?_iff.2 hread)
  obtain ⟨w', hslice'⟩ := Option.isSome_iff_exists.1 (Text.isSome_slice?_iff.2 ⟨hread.1, hstop⟩)
  obtain ⟨s, hs, href, hbytes⟩ := (html5_eq_iff hslice hpos).1 rfl
  exact (html5_eq_iff hslice' hpos).2 ⟨s, hs.trans (Text.prefix_of_slice? hslice hslice' hle), href, hbytes⟩

/-- **The probe recognises just the grammar, inside its window**, and so does every matcher of the pattern with the
search in the table. The answer is nothing where the window ends beyond 64 bits or the buffer or where it cuts a
character. Elsewhere the window can be read; the answer is a length above zero just when a reference of that length
starts the window, no other reference does, and a longer window is answered alike. -/
theorem html5_recognises {find : Text → Option (Text × Option Text)} (hfind : FollowsPattern find) {buffer : Text}
    (hbuffer : buffer.bytes < UInt64.size) (position remaining : Nat) :
    let n := html5 buffer position remaining
    byPattern find buffer position remaining = n ∧
    (UInt64.size ≤ position + remaining ∨ buffer.bytes < position + remaining ∨ buffer.isBoundary position = false ∨
      buffer.isBoundary (position + remaining) = false → n = 0) ∧
    (buffer.isBoundary position = true → buffer.isBoundary (position + remaining) = true →
      ∃ w, buffer.slice? position remaining = some w ∧ n ≤ remaining ∧
        (∀ m, 0 < m → (n = m ↔ ∃ s, s <+: w ∧ IsReference s ∧ Text.bytes s = m)) ∧
        ∀ s s', s <+: w → IsReference s → s' <+: w → IsReference s' → s = s') ∧
    ∀ larger, remaining ≤ larger → buffer.isBoundary (position + larger) = true → 0 < n →
      html5 buffer position larger = n := by
  intro n
  refine ⟨byPattern_eq hfind hbuffer position remaining, fun h => html5_of_not_isBoundary ?_, fun hstart hstop => ?_,
    fun larger hle hstop hpos => html5_of_le hle hstop hpos⟩
  · rintro ⟨hstart, hstop⟩
    have hle := Text.le_bytes_of_isBoundary hstop
    rcases h with hlarge | hbeyond | hcut | hcut
    · omega
    · omega
    · rw [hstart] at hcut
      cases hcut
    · rw [hstop] at hcut
      cases hcut
  · obtain ⟨w, hslice⟩ := Option.isSome_iff_exists.1 (Text.isSome_slice?_iff.2 ⟨hstart, hstop⟩)
    exact ⟨w, hslice, html5_le .., fun m hm => html5_eq_iff hslice hm,
      fun s s' hs href hs' href' => href.unique href' hs hs'⟩

/-- A reference behind a character of two bytes: it is recognised in the window that holds it and in a longer one, and
not from inside that character. -/
theorem html5_recognises_window :
    let buffer : Text := "ü&#x26;;".toList
    buffer.bytes < UInt64.size ∧ byPattern firstMatch buffer 2 6 = 6 ∧ html5 buffer 2 7 = 6 ∧
      html5 buffer 1 7 = 0 := by
  intro buffer
  have hbuffer : buffer.bytes < UInt64.size := by decide
  have hsix : html5 buffer 2 6 = 6 := by decide
  obtain ⟨hpattern, -, -, hlarger⟩ := html5_recognises firstMatch_followsPattern hbuffer 2 6
  obtain ⟨-, hcut, -⟩ := html5_recognises firstMatch_followsPattern hbuffer 1 7
  refine ⟨hbuffer, hpattern.trans hsix, ?_, hcut (.inr (.inr (.inl (by decide))))⟩
  exact (hlarger 7 (by decide) (by decide) (by omega)).trans hsix

end Probe

end CommonMark
