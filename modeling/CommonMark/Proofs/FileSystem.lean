import CommonMark.FileTree

/-!
# Writing files

What a program may rely on when it writes a file: all of the content is stored and nothing else is different, or the
write fails and changes nothing (`FileSystem.WritesWhole`). A file tree is such a file system (`FileTree.writesWhole`).
A file never takes the place of a directory, so a path that led to another place before leads to it after
(`FileTree.walk?_put_iff`).
-/

namespace CommonMark

namespace FileSystem

/-- Whether states differ in one file alone, which a path leads to and which holds a content. All else is as it was, and
the same paths lead to it. -/
structure Stored {σ ι : Type} [FileSystem σ ι] (before : σ) (path : Text) (content : ByteArray) (after : σ) : Prop where
  here : here? after = here? before
  file : ∃ i, find? after path = some i ∧ (∃ rights, entryOf? after i = some (.file content rights)) ∧
    ∀ other, other ≠ i → entryOf? after other = entryOf? before other ∧
      ∀ path', find? after path' = some other ↔ find? before path' = some other

/-- Whether every write of a file stores all of it and changes nothing else, or fails and changes nothing. -/
structure WritesWhole (σ : Type) {ι : Type} [FileSystem σ ι] : Prop where
  stored : ∀ (before : σ) (path : Text) (content : ByteArray), (write before path content).2 = true →
    Stored before path content (write before path content).1
  refused : ∀ (before : σ) (path : Text) (content : ByteArray), (write before path content).2 = false →
    (write before path content).1 = before

end FileSystem

namespace FileTree

variable {t : FileTree} {place : List Text}

/-- A file that a text was written to has that text. -/
theorem decode?_encode (text : Text) : decode? (encode text) = some text := by
  have hvalid : (encode text).IsValidUTF8 := (String.ofList text).isValidUTF8
  rw [decode?, String.fromUTF8?, dif_pos hvalid]
  exact congrArg some String.toList_ofList

theorem entryAt?_of_resolve? {path : Text} (h : t.resolve? path = some place) :
    FileSystem.entryAt? t path = t.lookup place := by
  show (t.resolve? path).bind t.lookup = t.lookup place
  rw [h, Option.bind_some]

/-! ## A tree with one more file -/

theorem lookup_put_self (t : FileTree) (place : List Text) (content : ByteArray) :
    ∃ rights, (t.put place content).lookup place = some (.file content rights) := ⟨_, if_pos rfl⟩

theorem lookup_put_of_ne {other : List Text} (h : other ≠ place) (content : ByteArray) :
    (t.put place content).lookup other = t.lookup other := by simp [put, h]

/-- A file that takes no directory's place leaves the directories. -/
theorem isSearchable_put (h : t.isSearchable place = false) (content : ByteArray) (other : List Text) :
    (t.put place content).isSearchable other = t.isSearchable other := by
  by_cases ho : other = place
  · subst ho
    rw [h]
    simp only [isSearchable, Bool.or_eq_false_iff] at h
    simp [isSearchable, put, h.1]
  · simp only [isSearchable, lookup_put_of_ne ho]

/-- What is no directory leads nowhere else. -/
theorem eq_of_walk? {first last : List Text} (h : t.isSearchable first = false) {names : List Text}
    (hwalk : t.walk? first names = some last) : last = first := by
  cases names with
  | nil => exact (Option.some.inj hwalk).symm
  | cons name names => simp [walk?, h] at hwalk

/-- Names lead to another place than that of a new file as they did. -/
theorem walk?_put_iff (h : t.isSearchable place = false) (content : ByteArray) {names : List Text} :
    ∀ {first last : List Text}, last ≠ place →
      ((t.put place content).walk? first names = some last ↔ t.walk? first names = some last) := by
  induction names with
  | nil => exact fun _ => Iff.rfl
  | cons name names ih =>
    intro first last hlast
    have hput : (t.put place content).isSearchable place = false := (isSearchable_put h content place).trans h
    simp only [walk?, isSearchable_put h]
    split
    · exact Iff.rfl
    split
    · exact ih hlast
    split
    · exact ih hlast
    by_cases hplace : first ++ [name] = place
    · -- Through the file leads no way, neither before nor after.
      subst hplace
      refine iff_of_false (fun hwalk => ?_) (fun hwalk => ?_)
      · split at hwalk
        · exact hlast (eq_of_walk? hput hwalk)
        · cases hwalk
      · split at hwalk
        · exact hlast (eq_of_walk? h hwalk)
        · cases hwalk
    · rw [lookup_put_of_ne hplace]
      split
      · exact ih hlast
      · exact Iff.rfl

theorem walk?_append (t : FileTree) (first : List Text) (names names' : List Text) :
    t.walk? first (names ++ names') = (t.walk? first names).bind (t.walk? · names') := by
  induction names generalizing first with
  | nil => rfl
  | cons name names ih =>
    simp only [List.cons_append, walk?, ih]
    repeat' split
    all_goals rfl

/-! ## Writes -/

/-- A file is written where no directory stands. -/
theorem isSearchable_of_takes {dir : List Text} {name : Text} (h : t.takes dir name = true) :
    t.isSearchable (dir ++ [name]) = false := by
  cases hl : t.lookup (dir ++ [name]) with
  | none => simp [isSearchable, hl]
  | some e =>
    cases e with
    | file => simp [isSearchable, hl]
    | directory | special => simp [takes, hl] at h

/-- What is written to a path is found at it. -/
theorem resolve?_put_target? {path : Text} (h : t.target? path = some place) (content : ByteArray) :
    t.isSearchable place = false ∧ (t.put place content).resolve? path = some place := by
  obtain ⟨first, names, hstart⟩ : ∃ first names, t.start path = (first, names) := ⟨_, _, rfl⟩
  have hstart' : (t.put place content).start path = (first, names) := hstart
  simp only [target?, hstart] at h
  cases hlast : names.getLast? with
  | none => simp [hlast] at h
  | some name =>
    simp only [hlast] at h
    split at h
    · cases h
    next hname =>
      obtain ⟨dir, hdir, hplace⟩ := Option.bind_eq_some_iff.mp h
      split at hplace
      next hok =>
        obtain ⟨hsearchable, htakes⟩ := by simpa using hok
        cases hplace
        have hfree := isSearchable_of_takes htakes
        have hnames : names = names.dropLast ++ [name] := by
          obtain ⟨init, rfl⟩ := List.getLast?_eq_some_iff.mp hlast
          simp
        have hpath : path.isEmpty = false := by
          cases path with
          | nil =>
            obtain ⟨-, rfl⟩ : t.here = first ∧ [[]] = names := by simpa [start] using hstart
            simp only [List.getLast?_singleton, Option.some.injEq] at hlast
            simp [← hlast] at hname
          | cons => rfl
        have hwalk := (walk?_put_iff hfree content (by simp)).2 hdir
        have hsome : ((t.put (dir ++ [name]) content).lookup (dir ++ [name])).isSome = true := by
          obtain ⟨rights, hlookup⟩ := lookup_put_self t (dir ++ [name]) content
          rw [hlookup]
          rfl
        refine ⟨hfree, ?_⟩
        simp only [resolve?, hpath, hstart', Bool.false_eq_true, if_false]
        rw [hnames, walk?_append, hwalk, Option.bind_some]
        simp only [not_or, Bool.or_eq_true, decide_eq_true_eq] at hname
        simp [walk?, isSearchable_put hfree, hsearchable, hname, hsome]
      · cases hplace

theorem stored_of_write? {t' : FileTree} {path : Text} {content : ByteArray} (h : t.write? path content = some t') :
    FileSystem.Stored t path content t' := by
  obtain ⟨place, hplace, rfl⟩ := Option.map_eq_some_iff.mp h
  obtain ⟨hfree, hresolve⟩ := resolve?_put_target? hplace content
  refine ⟨rfl, place, hresolve, lookup_put_self t place content, fun other hother =>
    ⟨lookup_put_of_ne hother content, fun path' => ?_⟩⟩
  show (t.put place content).resolve? path' = some other ↔ t.resolve? path' = some other
  rw [resolve?, resolve?]
  split
  · exact Iff.rfl
  · exact walk?_put_iff hfree content hother

/-- **A file tree writes files whole or not at all.** -/
theorem writesWhole : FileSystem.WritesWhole FileTree where
  stored before path content h := by
    simp only [FileSystem.write] at h ⊢
    split at h
    next after hwrite => exact stored_of_write? hwrite
    next => cases h
  refused before path content h := by
    simp only [FileSystem.write] at h ⊢
    split at h
    next => cases h
    next => rfl

end FileTree

end CommonMark
