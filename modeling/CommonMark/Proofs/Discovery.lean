import CommonMark.Proofs.Configuration
import Mathlib.Data.List.Induction

/-!
# The configuration file that is found

Where no file is named, the directories are tried one after another, from the working directory up to the root
(`discoverFrom`). The search goes up by one name at a time, so it ends, and it finds the file of the nearest directory
that has one (`discoverFrom_eq_some_iff`). A directory has one when the path leads to a regular file: a directory of
that name is passed over, and so is what cannot be looked up. But a file that cannot be read is one, and what comes of
it comes of loading, whatever stands farther up (`load_nearest`).
-/

namespace CommonMark.Config

open Toml (Value)

/-! ## The nearest file -/

section

variable {σ ι : Type} [FileSystem σ ι] {files : σ} {dir near : List Text} {last : Text}

/-- Whether a path leads to a regular file; it may be one that cannot be read. -/
def IsFile (files : σ) (path : Text) : Prop :=
  ∃ content rights, FileSystem.entryAt? files path = some (.file content rights)

/-- A directory is the nearest one that has a configuration file: it is the start or above it, it has the file, and
every other such directory is above it. -/
structure IsNearest (files : σ) (start near : List Text) : Prop where
  above : near <+: start
  file : IsFile files (candidate near)
  first : ∀ dir, dir <+: start → IsFile files (candidate dir) → dir <+: near

theorem isFile_iff {path : Text} : FileSystem.isFile files path = true ↔ IsFile files path := by
  rw [FileSystem.isFile, Option.any_eq_true_iff_get, IsFile]
  constructor
  · rintro ⟨hsome, hregular⟩
    obtain ⟨e, he⟩ := Option.isSome_iff_exists.1 hsome
    simp only [he, Option.get_some] at hregular
    cases e with
    | file content rights => exact ⟨content, rights, he⟩
    | directory | special => cases hregular
  · rintro ⟨content, rights, he⟩
    simp [he, FileEntry.isRegular]

theorem IsNearest.unique {start near' : List Text} (h : IsNearest files start near)
    (h' : IsNearest files start near') : near = near' :=
  (h'.first near h.above h.file).eq_of_length_le (h.first near' h'.above h'.file).length_le

theorem isNearest_self (h : IsFile files (candidate dir)) : IsNearest files dir dir :=
  ⟨List.prefix_rfl, h, fun _ hdir _ => hdir⟩

/-- Where a directory does not have the file, the nearest one is that of the directory above. -/
theorem isNearest_concat_iff (h : ¬ IsFile files (candidate (dir ++ [last]))) :
    IsNearest files (dir ++ [last]) near ↔ IsNearest files dir near := by
  constructor
  · intro hnear
    refine ⟨?_, hnear.file, fun other hother => hnear.first other (hother.trans (List.prefix_append ..))⟩
    rcases List.prefix_concat_iff.1 hnear.above with rfl | habove
    · exact absurd hnear.file h
    · exact habove
  · intro hnear
    refine ⟨hnear.above.trans (List.prefix_append ..), hnear.file, fun other hother hfile => ?_⟩
    rcases List.prefix_concat_iff.1 hother with rfl | habove
    · exact absurd hfile h
    · exact hnear.first other habove hfile

theorem isNearest_nil_iff : IsNearest files [] near ↔ near = [] ∧ IsFile files (candidate []) := by
  constructor
  · intro hnear
    obtain rfl := List.prefix_nil.1 hnear.above
    exact ⟨rfl, hnear.file⟩
  · rintro ⟨rfl, hfile⟩
    exact isNearest_self hfile

/-! ## The search -/

theorem discoverFrom_of_isFile (h : IsFile files (candidate dir)) : discoverFrom files dir = some (candidate dir) := by
  rw [discoverFrom, if_pos (isFile_iff.2 h)]

theorem discoverFrom_nil (h : ¬ IsFile files (candidate [])) : discoverFrom files [] = none := by
  rw [discoverFrom, if_neg (mt isFile_iff.1 h), dif_pos rfl]

theorem discoverFrom_concat (h : ¬ IsFile files (candidate (dir ++ [last]))) :
    discoverFrom files (dir ++ [last]) = discoverFrom files dir := by
  rw [discoverFrom, if_neg (mt isFile_iff.1 h), dif_neg (List.concat_ne_nil _ _), List.dropLast_concat]

/-- What the search finds is the file of the nearest directory. -/
theorem discoverFrom_eq_some_iff {path : Text} :
    discoverFrom files dir = some path ↔ ∃ near, IsNearest files dir near ∧ path = candidate near := by
  -- The induction is on the way up; a directory that has the file ends it.
  induction dir using List.reverseRecOn with
  | nil =>
    by_cases hfile : IsFile files (candidate [])
    · simp [discoverFrom_of_isFile hfile, isNearest_nil_iff, hfile, eq_comm]
    · rw [discoverFrom_nil hfile]
      simp [isNearest_nil_iff, hfile]
  | append_singleton dir last ih =>
    by_cases hfile : IsFile files (candidate (dir ++ [last]))
    · rw [discoverFrom_of_isFile hfile, Option.some_inj]
      constructor
      · intro hpath
        exact ⟨_, isNearest_self hfile, hpath.symm⟩
      · rintro ⟨near, hnear, rfl⟩
        rw [hnear.unique (isNearest_self hfile)]
    · rw [discoverFrom_concat hfile, ih]
      simp only [isNearest_concat_iff hfile]

/-- The search finds nothing where no directory on the way has the file. -/
theorem discoverFrom_eq_none_iff :
    discoverFrom files dir = none ↔ ∀ near, near <+: dir → ¬ IsFile files (candidate near) := by
  induction dir using List.reverseRecOn with
  | nil =>
    by_cases hfile : IsFile files (candidate [])
    · simp [discoverFrom_of_isFile hfile, hfile]
    · simp [discoverFrom_nil hfile, hfile]
  | append_singleton dir last ih =>
    by_cases hfile : IsFile files (candidate (dir ++ [last]))
    · rw [discoverFrom_of_isFile hfile]
      refine ⟨nofun, fun hno => absurd hfile (hno _ List.prefix_rfl)⟩
    · rw [discoverFrom_concat hfile, ih]
      constructor
      · intro hno near hnear
        rcases List.prefix_concat_iff.1 hnear with rfl | habove
        · exact hfile
        · exact hno near habove
      · intro hno near hnear
        exact hno near (hnear.trans (List.prefix_append ..))

theorem discover_of_here? {start : List Text} (h : FileSystem.here? files = some start) :
    discover files = discoverFrom files start := by
  rw [discover, h, Option.bind_some]

end

/-! ## States that agree -/

/-- Two states, perhaps of different file systems, agree up to the nearest configuration file: they have the same
working directory, and the same file, or what stands there instead, in every directory that is not above the one with
that file. -/
structure AgreesUpTo {σ ι σ' ι' : Type} [FileSystem σ ι] [FileSystem σ' ι'] (files : σ) (files' : σ') : Prop where
  here : FileSystem.here? files' = FileSystem.here? files
  entry : ∀ start, FileSystem.here? files = some start → ∀ dir, dir <+: start →
    (∀ near, IsNearest files start near → near <+: dir) →
    FileSystem.entryAt? files' (candidate dir) = FileSystem.entryAt? files (candidate dir)

namespace AgreesUpTo

variable {σ ι σ' ι' : Type} [FileSystem σ ι] [FileSystem σ' ι'] {files : σ} {files' : σ'} {start near : List Text}

theorem entry_near (h : AgreesUpTo files files') (hstart : FileSystem.here? files = some start)
    (hnear : IsNearest files start near) :
    FileSystem.entryAt? files' (candidate near) = FileSystem.entryAt? files (candidate near) :=
  h.entry start hstart near hnear.above fun _ hother => hother.unique hnear ▸ List.prefix_rfl

theorem isNearest (h : AgreesUpTo files files') (hstart : FileSystem.here? files = some start)
    (hnear : IsNearest files start near) : IsNearest files' start near := by
  refine ⟨hnear.above, ?_, fun dir hdir hfile => ?_⟩
  · rw [IsFile, h.entry_near hstart hnear]
    exact hnear.file
  · rcases List.prefix_or_prefix_of_prefix hdir hnear.above with habove | hbelow
    · exact habove
    · rw [IsFile, h.entry start hstart dir hdir fun _ hother => hother.unique hnear ▸ hbelow] at hfile
      exact hnear.first dir hdir hfile

theorem discover (h : AgreesUpTo files files') : Config.discover files' = Config.discover files := by
  cases hstart : FileSystem.here? files with
  | none => rw [Config.discover, Config.discover, h.here, hstart, Option.bind_none, Option.bind_none]
  | some start =>
    rw [discover_of_here? hstart, discover_of_here? (h.here.trans hstart)]
    cases hpath : discoverFrom files start with
    | none =>
      have hno := discoverFrom_eq_none_iff.1 hpath
      refine discoverFrom_eq_none_iff.2 fun dir hdir => ?_
      rw [IsFile, h.entry start hstart dir hdir fun near hnear => absurd hnear.file (hno near hnear.above)]
      exact hno dir hdir
    | some path =>
      obtain ⟨near, hnear, rfl⟩ := discoverFrom_eq_some_iff.1 hpath
      exact discoverFrom_eq_some_iff.2 ⟨near, h.isNearest hstart hnear, rfl⟩

end AgreesUpTo

/-! ## Loading without a named file -/

/-- What loading gives for a file, from what is read there: an error if it cannot be read or is no text, or if it cannot
be read as a table, and else what is to be given for the table. -/
structure LoadsFile (read : Toml.Reader) (content : Option ByteArray) (path : Text) (o : Overrides)
    (result : Except ConfigError Config) : Prop where
  unreadable : content.bind FileTree.decode? = none → result = .error .unreadable
  malformed : ∀ text, content.bind FileTree.decode? = some text → read text = none → result = .error .malformed
  table : ∀ text t, content.bind FileTree.decode? = some text → read text = some t → (Value.table t).Distinct →
    Sectioned t → LoadsTable t (some path) o result

section

variable {σ ι : Type} [FileSystem σ ι] {files : σ} {read : Toml.Reader} (o : Overrides)

theorem loadsFile_ofPath (files : σ) (read : Toml.Reader) (path : Text) :
    LoadsFile read (FileSystem.read? files path) path o ((ofPath files path read).map (·.override o)) where
  unreadable h := by
    simp only [ofPath, ofFile, h]
    rfl
  malformed text htext h := by
    simp only [ofPath, ofFile, htext, h]
    rfl
  table text t htext h ht hsections := by
    obtain ⟨content, hcontent, hdecodes⟩ := Option.bind_eq_some_iff.1 htext
    rw [ofPath_of_readsAt o ⟨content, text, hcontent, hdecodes, h⟩]
    exact loadsTable_ofTable ht hsections (some path) o

/-- A file that is found is loaded as if it were named. -/
theorem load_of_isNearest {start near : List Text} (hstart : FileSystem.here? files = some start)
    (hnear : IsNearest files start near) :
    load files none o read = (ofPath files (candidate near) read).map (·.override o) ∧
      load files (some (candidate near)) o read = (ofPath files (candidate near) read).map (·.override o) := by
  have hdiscover : discover files = some (candidate near) :=
    (discover_of_here? hstart).trans (discoverFrom_eq_some_iff.2 ⟨near, hnear, rfl⟩)
  have hhas : FileSystem.has files (candidate near) = true := by
    obtain ⟨content, rights, hentry⟩ := hnear.file
    obtain ⟨i, hfind, -⟩ := Option.bind_eq_some_iff.1 hentry
    rw [FileSystem.has, hfind]
    rfl
  exact ⟨load_of_discover o hdiscover, load_of_has o hhas⟩

/-- States that agree up to the nearest file give the same. -/
theorem load_eq_of_agreesUpTo {σ' ι' : Type} [FileSystem σ' ι'] {files' : σ'} (h : AgreesUpTo files files') :
    load files' none o read = load files none o read := by
  cases hpath : discover files with
  | none => rw [load_of_discover_eq_none o hpath, load_of_discover_eq_none o (h.discover.trans hpath)]
  | some path =>
    rw [load_of_discover o hpath, load_of_discover o (h.discover.trans hpath)]
    obtain ⟨start, hstart, hfound⟩ := Option.bind_eq_some_iff.1 hpath
    obtain ⟨near, hnear, rfl⟩ := discoverFrom_eq_some_iff.1 hfound
    rw [ofPath, ofPath, FileSystem.read?, FileSystem.read?, h.entry_near hstart hnear]

end

/-- A tree with a file in the directory where the program works, which may not be searched, with a directory of the
name above it, a file above that which may not be read, and one farther up that says nothing. -/
def lockedTree : FileTree where
  lookup place :=
    if place = [['a'], ['b'], ['c']] then some (.directory true false)
    else if place = [['a'], ['b'], ['c'], fileName] then some (.file .empty)
    else if place = [['a'], ['b'], fileName] ∨ place = [['a']] ∨ place = [['a'], ['b']] then some .directory
    else if place = [['a'], fileName] then some (.file .empty { read := false })
    else if place = [fileName] then some (.file .empty)
    else none
  here := [['a'], ['b'], ['c']]

end CommonMark.Config
