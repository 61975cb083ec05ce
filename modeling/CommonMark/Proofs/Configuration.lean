import CommonMark.Config
import CommonMark.Proofs.DistinctKeys
import CommonMark.Proofs.FileSystem
import CommonMark.Proofs.Utf8

/-!
# What a configuration is made of

The four settings are listed once more here, with where each stands in a file and what it is when nothing says so.
Whatever a file has that this list does not name is refused, the first of it by the bytes of the sections and then of
the keys; else a value that is no boolean is; and else each setting is what is given for the run, or what stands in the
file, or its default (`load_of_source`). The first in the order of bytes is found by a search of the sorted entries
(`findSome?_sortKeys`), and a value by a search for its key, of which there is one (`mem_iff_lookup`). It does not
matter what reads the file, as long as no key stands twice in a table.
-/

namespace CommonMark.Config

open Toml (Table Value eq_of_mem mem_iff_lookup)

/-! ## Settings and files -/

/-- One of the options: the section and the key where it stands in a file, its default, and where it is in what is
given for a run and in a configuration. -/
structure Setting where
  sectionName : Text
  key : Text
  initial : Bool
  given : Overrides → Option Bool
  value : Config → Bool

/-- The options. -/
def settings : List Setting :=
  [⟨"parser".toList, "smart_punctuation".toList, false, (·.smartPunctuation), (·.parse.smartPunctuation)⟩,
    ⟨"parser".toList, "reference_definitions".toList, true, (·.referenceDefinitions), (·.parse.referenceDefinitions)⟩,
    ⟨"render".toList, "tight".toList, false, (·.tight), (·.tight)⟩,
    ⟨"render".toList, "preserve_entities".toList, true, (·.preserveEntities), (·.preserveEntities)⟩]

/-- Whether a value stands at a key of a section of a file. -/
def StandsAt (t : Table) (sectionName key : Text) (v : Value) : Prop :=
  ∃ fields, (sectionName, .table fields) ∈ t ∧ (key, v) ∈ fields

/-- A section of a file, or a key of a section. -/
structure Place where
  sectionName : Text
  key : Option Text

namespace Place

/-- The error that names it. -/
def error : Place → ConfigError
  | ⟨name, none⟩ => .unknownSection name
  | ⟨name, some key⟩ => .unknownKey name key

/-- Whether a place comes before another, by the bytes of the sections and then of the keys. -/
def Before (p q : Place) : Prop :=
  p.sectionName.utf8 < q.sectionName.utf8 ∨
    p.sectionName = q.sectionName ∧ ∃ k l, p.key = some k ∧ q.key = some l ∧ k.utf8 < l.utf8

end Place

/-- What a file has and no setting names: a section that none is in, or a key in the section of some. -/
inductive Unknown (t : Table) : Place → Prop where
  | sectionName {name : Text} {v : Value} (stands : (name, v) ∈ t) (unnamed : ∀ s ∈ settings, s.sectionName ≠ name) :
    Unknown t ⟨name, none⟩
  | key {name key : Text} {v : Value} (stands : StandsAt t name key v) (named : ∃ s ∈ settings, s.sectionName = name)
    (unnamed : ∀ s ∈ settings, s.sectionName = name → s.key ≠ key) : Unknown t ⟨name, some key⟩

/-- Whether a place is the first one in a file that no setting names. -/
def FirstUnknown (t : Table) (p : Place) : Prop := Unknown t p ∧ ∀ q, Unknown t q → q ≠ p → p.Before q

/-- Whether every section that a setting is in is a table. -/
def Sectioned (t : Table) : Prop := ∀ s ∈ settings, ∀ v, (s.sectionName, v) ∈ t → ∃ fields, v = .table fields

/-- Whether a setting is what it has to be, given a file and what is given for a run. -/
structure Setting.Chosen (s : Setting) (t : Table) (o : Overrides) (b : Bool) : Prop where
  given : ∀ g, s.given o = some g → b = g
  stands : s.given o = none → ∀ f, StandsAt t s.sectionName s.key (.boolean f) → b = f
  initial : s.given o = none → (∀ v, ¬ StandsAt t s.sectionName s.key v) → b = s.initial

/-- What loading gives for the table of a file: the first place that no setting names is the error; else a value that is
no boolean is one; and else there is a configuration, in which each setting is chosen from what is given, the file and
the default. -/
structure LoadsTable (t : Table) (shown : Option Text) (o : Overrides) (result : Except ConfigError Config) :
    Prop where
  unknown : ∀ p, Unknown t p → ∃ first, FirstUnknown t first ∧ result = .error first.error
  refused : (∀ p, ¬ Unknown t p) → (∃ s k v, StandsAt t s k v ∧ ∀ b, v ≠ .boolean b) → result = .error .malformed
  chosen : (∀ p, ¬ Unknown t p) → (∀ s k v, StandsAt t s k v → ∃ b, v = .boolean b) →
    ∃ c, result = .ok c ∧ c.path = shown ∧ ∀ s ∈ settings, s.Chosen t o (s.value c)

section

variable {σ ι : Type} [FileSystem σ ι]

/-- Whether a table is the one that a reader finds in what is read at a path. -/
def ReadsAt (files : σ) (read : Toml.Reader) (path : Text) (t : Table) : Prop :=
  ∃ content text, FileSystem.read? files path = some content ∧ FileTree.decode? content = some text ∧
    read text = some t

/-- The table a configuration comes from, with the path that is shown for it: that of the file that is named, or of the
nearest one, or nothing. -/
inductive Source (files : σ) (read : Toml.Reader) : Option Text → Table → Option Text → Prop where
  | named {path : Text} {t : Table} (found : FileSystem.has files path = true)
    (reads : ReadsAt files read path t) : Source files read (some path) t (some path)
  | nearest {path : Text} {t : Table} (found : discover files = some path)
    (reads : ReadsAt files read path t) : Source files read none t (some path)
  | absent (found : discover files = none) : Source files read none [] none

end

/-! ## Searches -/

section

variable {t : Table}

theorem mem_sortKeys {e : Text × Value} : e ∈ sortKeys t ↔ e ∈ t := List.mem_mergeSort

/-- Sorted entries have their keys in the order of the bytes. -/
theorem pairwise_sortKeys (t : Table) : (sortKeys t).Pairwise fun a b => a.1.utf8 ≤ b.1.utf8 := by
  refine (List.pairwise_mergeSort (fun a b c hab hbc => ?_) (fun a b => ?_) t).imp Text.isOrdered_iff.1
  · exact Text.isOrdered_iff.2 (List.le_trans (Text.isOrdered_iff.1 hab) (Text.isOrdered_iff.1 hbc))
  · rw [Bool.or_eq_true, Text.isOrdered_iff, Text.isOrdered_iff]
    exact List.le_total _ _

/-- What a search of sorted entries finds, it finds at the first key by its bytes. -/
theorem findSome?_sortKeys {α : Type} {f : Text × Value → Option α} {a : α} (h : (sortKeys t).findSome? f = some a) :
    ∃ e ∈ t, f e = some a ∧ ∀ e' ∈ t, f e' ≠ none → e.1.utf8 ≤ e'.1.utf8 := by
  obtain ⟨before, e, after, hsplit, he, hbefore⟩ := List.findSome?_eq_some_iff.1 h
  have hsorted := pairwise_sortKeys t
  rw [hsplit, List.pairwise_append, List.pairwise_cons] at hsorted
  refine ⟨e, mem_sortKeys.1 (by simp [hsplit]), he, fun e' he' hf => ?_⟩
  have hmem := mem_sortKeys.2 he'
  rw [hsplit, List.mem_append, List.mem_cons] at hmem
  rcases hmem with hmem | rfl | hmem
  · exact absurd (hbefore e' hmem) hf
  · exact List.le_refl _
  · exact hsorted.2.1.1 e' hmem

theorem find?_sortKeys {p : Text × Value → Bool} {e : Text × Value} (h : (sortKeys t).find? p = some e) :
    e ∈ t ∧ p e = true ∧ ∀ e' ∈ t, p e' = true → e.1.utf8 ≤ e'.1.utf8 := by
  rw [List.find?_eq_findSome?_guard] at h
  obtain ⟨e', he', hguard, hfirst⟩ := findSome?_sortKeys h
  obtain ⟨rfl, hp⟩ := Option.guard_eq_some_iff.1 hguard
  exact ⟨he', hp, fun x hx hpx => hfirst x hx (by simp [Option.guard, hpx])⟩

end

/-! ## What no setting names -/

/-- A key that no setting of a section has is none of the two keys of the section. -/
theorem unnamed_iff {name key : Text} :
    (∀ s ∈ settings, s.sectionName = name → s.key ≠ key) ↔
      (name = parserSection.name → key ≠ parserSection.first ∧ key ≠ parserSection.second) ∧
        (name = renderSection.name → key ≠ renderSection.first ∧ key ≠ renderSection.second) := by
  constructor
  · intro h
    refine ⟨fun hname => ⟨fun hkey => ?_, fun hkey => ?_⟩, fun hname => ⟨fun hkey => ?_, fun hkey => ?_⟩⟩
    · exact h _ (.head _) hname.symm hkey.symm
    · exact h _ (.tail _ (.head _)) hname.symm hkey.symm
    · exact h _ (.tail _ (.tail _ (.head _))) hname.symm hkey.symm
    · exact h _ (.tail _ (.tail _ (.tail _ (.head _)))) hname.symm hkey.symm
  · rintro ⟨hparser, hrender⟩ s hs rfl rfl
    simp only [settings, List.mem_cons, List.not_mem_nil, or_false] at hs
    rcases hs with rfl | rfl | rfl | rfl
    · exact (hparser rfl).1 rfl
    · exact (hparser rfl).2 rfl
    · exact (hrender rfl).1 rfl
    · exact (hrender rfl).2 rfl

/-- The sections of the program are those of the settings, with the same keys. -/
theorem section?_cases (name : Text) :
    (section? name = none ∧ ∀ s ∈ settings, s.sectionName ≠ name) ∨
      ∃ s, section? name = some s ∧ s.name = name ∧ (∃ x ∈ settings, x.sectionName = name) ∧
        ∀ k, (k ≠ s.first ∧ k ≠ s.second) ↔ ∀ x ∈ settings, x.sectionName = name → x.key ≠ k := by
  have hne : parserSection.name ≠ renderSection.name := by decide
  by_cases hparser : name = parserSection.name
  · subst hparser
    refine .inr ⟨parserSection, rfl, rfl, ⟨_, .head _, rfl⟩, fun k => ?_⟩
    rw [unnamed_iff]
    exact ⟨fun h => ⟨fun _ => h, fun hname => absurd hname hne⟩, fun h => h.1 rfl⟩
  · by_cases hrender : name = renderSection.name
    · subst hrender
      refine .inr ⟨renderSection, rfl, rfl, ⟨_, .tail _ (.tail _ (.head _)), rfl⟩, fun k => ?_⟩
      rw [unnamed_iff]
      exact ⟨fun h => ⟨fun hname => absurd hname.symm hne, fun _ => h⟩, fun h => h.2 rfl⟩
    · refine .inl ⟨?_, fun s hs hname => ?_⟩
      · simp [section?, Ne.symm hparser, Ne.symm hrender]
      · simp only [settings, List.mem_cons, List.not_mem_nil, or_false] at hs
        rcases hs with rfl | rfl | rfl | rfl
        · exact hparser hname.symm
        · exact hparser hname.symm
        · exact hrender hname.symm
        · exact hrender hname.symm

section

variable {t : Table}

/-- What is found about an entry: its section, or the first of the keys in it that no setting has. -/
theorem unknown?_eq_some {name : Text} {v : Value} {e : ConfigError} (h : unknown? (name, v) = some e) :
    (∀ s ∈ settings, s.sectionName ≠ name) ∧ e = .unknownSection name ∨
      (∃ s ∈ settings, s.sectionName = name) ∧ ∃ fields key w, v = .table fields ∧ (key, w) ∈ fields ∧
        (∀ s ∈ settings, s.sectionName = name → s.key ≠ key) ∧
        (∀ key' w', (key', w') ∈ fields → (∀ s ∈ settings, s.sectionName = name → s.key ≠ key') →
          key.utf8 ≤ key'.utf8) ∧ e = .unknownKey name key := by
  rcases section?_cases name with ⟨hs, hunnamed⟩ | ⟨s, hs, rfl, hnamed, hkeys⟩
  · exact .inl ⟨hunnamed, by simpa [unknown?, hs, eq_comm] using h⟩
  · simp only [unknown?, hs] at h
    cases v with
    | table fields =>
      obtain ⟨⟨key, w⟩, hfound, rfl⟩ := Option.map_eq_some_iff.1 h
      obtain ⟨hmem, hother, hfirst⟩ := find?_sortKeys hfound
      refine .inr ⟨hnamed, fields, key, w, rfl, hmem, (hkeys key).1 (by simpa using hother), ?_, rfl⟩
      exact fun key' w' hmem' hunnamed => hfirst _ hmem' (by simpa using (hkeys key').2 hunnamed)
    | _ => simp at h

/-- What is found about an entry comes before all else that is unknown in its section. -/
theorem unknown_of_unknown? (ht : (Value.table t).Distinct) {name : Text} {v : Value} (hmem : (name, v) ∈ t)
    {e : ConfigError} (h : unknown? (name, v) = some e) :
    ∃ p : Place, p.sectionName = name ∧ e = p.error ∧ Unknown t p ∧
      ∀ q, Unknown t q → q.sectionName = name → q ≠ p → p.Before q := by
  rcases unknown?_eq_some h with ⟨hunnamed, rfl⟩ | ⟨hnamed, fields, key, w, rfl, hkey, hunnamed, hfirst, rfl⟩
  · refine ⟨⟨name, none⟩, rfl, rfl, .sectionName hmem hunnamed, fun q hq hname hne => ?_⟩
    cases hq with
    | sectionName => exact absurd (by rw [← hname]) hne
    | key _ hnamed =>
      obtain ⟨s, hs, hsection⟩ := hnamed
      exact absurd (hsection.trans hname) (hunnamed s hs)
  · refine ⟨⟨name, some key⟩, rfl, rfl, .key ⟨fields, hmem, hkey⟩ hnamed hunnamed, fun q hq hname hne => ?_⟩
    cases hq with
    | sectionName _ hunnamed' =>
      obtain ⟨s, hs, hsection⟩ := hnamed
      exact absurd (hsection.trans hname.symm) (hunnamed' s hs)
    | @key _ key' w' hstands _ hunnamed' =>
      -- A section stands once in a file, so the other key is one of the same table.
      obtain rfl := hname
      obtain ⟨fields', hmem', hkey'⟩ := hstands
      obtain ⟨rfl⟩ : fields = fields' := Value.table.inj (eq_of_mem ht.nodup hmem hmem')
      refine .inr ⟨rfl, key, key', rfl, rfl, ?_⟩
      refine (List.le_iff_lt_or_eq.1 (hfirst key' w' hkey' hunnamed')).resolve_right fun heq => hne ?_
      obtain rfl : key = key' := Text.utf8_injective heq
      rfl

/-- Whatever is unknown, something is found about the entry of its section. -/
theorem unknown?_of_unknown {q : Place} (h : Unknown t q) :
    ∃ v, (q.sectionName, v) ∈ t ∧ unknown? (q.sectionName, v) ≠ none := by
  cases h with
  | @sectionName name v hmem hunnamed =>
    refine ⟨v, hmem, ?_⟩
    rcases section?_cases name with ⟨hs, -⟩ | ⟨s, -, -, ⟨x, hx, hname⟩, -⟩
    · simp [unknown?, hs]
    · exact absurd hname (hunnamed x hx)
  | @key name key v hstands hnamed hunnamed =>
    obtain ⟨fields, hmem, hkey⟩ := hstands
    refine ⟨_, hmem, ?_⟩
    rcases section?_cases name with ⟨-, hnone⟩ | ⟨s, hs, -, -, hkeys⟩
    · obtain ⟨x, hx, hname⟩ := hnamed
      exact absurd hname (hnone x hx)
    · have hfound := (hkeys key).2 hunnamed
      simp only [unknown?, hs, ne_eq, Option.map_eq_none_iff, List.find?_eq_none]
      exact fun hnone => hnone (key, v) (mem_sortKeys.2 hkey) (by simpa using hfound)

theorem firstUnknown_of_findSome? (ht : (Value.table t).Distinct) {e : ConfigError}
    (h : (sortKeys t).findSome? unknown? = some e) : ∃ p, FirstUnknown t p ∧ e = p.error := by
  obtain ⟨⟨name, v⟩, hmem, he, hfirst⟩ := findSome?_sortKeys h
  obtain ⟨p, hname, rfl, hp, hsame⟩ := unknown_of_unknown? ht hmem he
  refine ⟨p, ⟨hp, fun q hq hne => ?_⟩, rfl⟩
  obtain ⟨w, hw, hfound⟩ := unknown?_of_unknown hq
  have hle : p.sectionName.utf8 ≤ q.sectionName.utf8 := hname ▸ hfirst _ hw hfound
  rcases List.le_iff_lt_or_eq.1 hle with hlt | heq
  · exact .inl hlt
  · exact hsame q hq ((Text.utf8_injective heq).symm.trans hname) hne

theorem not_unknown_of_findSome? (h : (sortKeys t).findSome? unknown? = none) (p : Place) : ¬ Unknown t p := by
  intro hp
  obtain ⟨v, hmem, hfound⟩ := unknown?_of_unknown hp
  exact hfound (List.findSome?_eq_none_iff.1 h _ (mem_sortKeys.2 hmem))

end

/-! ## Values that stand in a file -/

/-- The value at a key of a section that is a table. -/
def valueAt? (t : Table) (sectionName key : Text) : Option Value :=
  match t.lookup sectionName with
  | some (.table fields) => fields.lookup key
  | _ => none

/-- A value is no boolean and refused, or else it is what is read, or there is none. -/
theorem flag?_cases (v? : Option Value) :
    (∃ v, v? = some v ∧ (∀ b, v ≠ .boolean b) ∧ flag? v? = .error .malformed) ∨
      ∃ b?, flag? v? = .ok b? ∧ ∀ v, v? = some v ↔ ∃ b, b? = some b ∧ v = .boolean b := by
  cases v? with
  | none => exact .inr ⟨none, rfl, by simp⟩
  | some v =>
    cases v with
    | boolean b => exact .inr ⟨some b, rfl, by simp [eq_comm]⟩
    | _ => exact .inl ⟨_, rfl, by simp, rfl⟩

section

variable {t : Table}

theorem valueAt?_eq_some_iff (ht : (Value.table t).Distinct) {sectionName key : Text} {v : Value} :
    valueAt? t sectionName key = some v ↔ StandsAt t sectionName key v := by
  constructor
  · intro h
    unfold valueAt? at h
    split at h
    next fields hfields =>
      have hmem := (mem_iff_lookup ht.nodup).2 hfields
      exact ⟨fields, hmem, (mem_iff_lookup (ht.of_mem hmem).nodup).2 h⟩
    next => cases h
  · rintro ⟨fields, hmem, hkey⟩
    simp only [valueAt?, (mem_iff_lookup ht.nodup).1 hmem]
    exact (mem_iff_lookup (ht.of_mem hmem).nodup).1 hkey

theorem options?_eq (ht : (Value.table t).Distinct) {s : Section}
    (htable : ∀ v, (s.name, v) ∈ t → ∃ fields, v = .table fields) :
    options? s (t.lookup s.name) =
      (do .ok (← flag? (valueAt? t s.name s.first), ← flag? (valueAt? t s.name s.second))) := by
  cases hv : t.lookup s.name with
  | none => simp [options?, valueAt?, hv, flag?, bind, Except.bind]
  | some v =>
    obtain ⟨fields, rfl⟩ := htable v ((mem_iff_lookup ht.nodup).2 hv)
    simp [options?, valueAt?, hv]

/-- A file in which all is named is read setting by setting. -/
theorem ofTable_eq (ht : (Value.table t).Distinct) (hsections : Sectioned t) (hknown : ∀ p, ¬ Unknown t p) :
    ofTable t = (do
      let smart ← flag? (valueAt? t "parser".toList "smart_punctuation".toList)
      let definitions ← flag? (valueAt? t "parser".toList "reference_definitions".toList)
      let tight ← flag? (valueAt? t "render".toList "tight".toList)
      let entities ← flag? (valueAt? t "render".toList "preserve_entities".toList)
      .ok
        { parse := { smartPunctuation := smart.getD false, referenceDefinitions := definitions.getD true }
          tight := tight.getD false
          preserveEntities := entities.getD true }) := by
  have hnone : (sortKeys t).findSome? unknown? = none := by
    cases hfound : (sortKeys t).findSome? unknown? with
    | none => rfl
    | some e =>
      obtain ⟨p, hp, -⟩ := firstUnknown_of_findSome? ht hfound
      exact absurd hp.1 (hknown p)
  have hparser : ∀ v, (parserSection.name, v) ∈ t → ∃ fields, v = .table fields :=
    hsections _ (List.mem_cons_self ..)
  have hrender : ∀ v, (renderSection.name, v) ∈ t → ∃ fields, v = .table fields :=
    hsections _ (.tail _ (.tail _ (.head _)))
  rw [ofTable, hnone]
  dsimp only
  rw [options?_eq ht hparser, options?_eq ht hrender]
  simp only [bind_assoc]
  rfl

/-- Where a value is refused, so is what comes of it. -/
theorem flag?_bind_eq_malformed {α : Type} {v? : Option Value} {f : Option Bool → Except ConfigError α}
    (h : flag? v? = .error .malformed ∨ ∀ b?, f b? = .error .malformed) : flag? v? >>= f = .error .malformed := by
  rcases flag?_cases v? with ⟨-, -, -, herror⟩ | ⟨b?, hok, -⟩
  · rw [herror]
    rfl
  · rw [hok] at h ⊢
    exact h.resolve_left nofun b?

/-- Where all is named, a value stands at a setting. -/
theorem named_of_standsAt (hknown : ∀ p, ¬ Unknown t p) {sectionName key : Text} {v : Value}
    (hstands : StandsAt t sectionName key v) : ∃ s ∈ settings, s.sectionName = sectionName ∧ s.key = key := by
  by_cases hname : ∃ s ∈ settings, s.sectionName = sectionName
  · by_cases hkey : ∃ s ∈ settings, s.sectionName = sectionName ∧ s.key = key
    · exact hkey
    · exact absurd (.key hstands hname fun s hs hsection hskey => hkey ⟨s, hs, hsection, hskey⟩) (hknown _)
  · obtain ⟨fields, hmem, -⟩ := hstands
    exact absurd (.sectionName hmem fun s hs hsection => hname ⟨s, hs, hsection⟩) (hknown _)

/-- A value that is no boolean is refused, at whichever setting it stands. -/
theorem ofTable_of_not_boolean (ht : (Value.table t).Distinct) (hsections : Sectioned t)
    (hknown : ∀ p, ¬ Unknown t p) {sectionName key : Text} {v : Value} (hstands : StandsAt t sectionName key v)
    (hv : ∀ b, v ≠ .boolean b) : ofTable t = .error .malformed := by
  have hrefused : flag? (valueAt? t sectionName key) = .error .malformed := by
    rw [(valueAt?_eq_some_iff ht).2 hstands]
    cases v with
    | boolean b => exact absurd rfl (hv b)
    | _ => rfl
  obtain ⟨s, hs, rfl, rfl⟩ := named_of_standsAt hknown hstands
  rw [ofTable_eq ht hsections hknown]
  simp only [settings, List.mem_cons, List.not_mem_nil, or_false] at hs
  rcases hs with rfl | rfl | rfl | rfl
  · exact flag?_bind_eq_malformed (.inl hrefused)
  · exact flag?_bind_eq_malformed (.inr fun _ => flag?_bind_eq_malformed (.inl hrefused))
  · exact flag?_bind_eq_malformed (.inr fun _ => flag?_bind_eq_malformed (.inr fun _ =>
      flag?_bind_eq_malformed (.inl hrefused)))
  · exact flag?_bind_eq_malformed (.inr fun _ => flag?_bind_eq_malformed (.inr fun _ =>
      flag?_bind_eq_malformed (.inr fun _ => flag?_bind_eq_malformed (.inl hrefused))))

/-- Where all values are booleans, what is read for a setting is what stands there. -/
theorem flag?_of_boolean (ht : (Value.table t).Distinct) (hbool : ∀ s k v, StandsAt t s k v → ∃ b, v = .boolean b)
    (sectionName key : Text) :
    ∃ b?, flag? (valueAt? t sectionName key) = .ok b? ∧
      ∀ b, b? = some b ↔ StandsAt t sectionName key (.boolean b) := by
  rcases flag?_cases (valueAt? t sectionName key) with ⟨v, hv, hne, -⟩ | ⟨b?, hok, hb⟩
  · obtain ⟨b, rfl⟩ := hbool _ _ _ ((valueAt?_eq_some_iff ht).1 hv)
    exact absurd rfl (hne b)
  · refine ⟨b?, hok, fun b => ?_⟩
    rw [← valueAt?_eq_some_iff ht, hb]
    simp

/-- A setting that is given, or else stands in the file, or else has its default, is what it has to be. -/
theorem chosen_getD {s : Setting} {b? : Option Bool}
    (hb : ∀ b, b? = some b ↔ StandsAt t s.sectionName s.key (.boolean b)) (o : Overrides) :
    s.Chosen t o ((s.given o).getD (b?.getD s.initial)) where
  given g hg := by rw [hg, Option.getD_some]
  stands hnone f hf := by rw [hnone, (hb f).2 hf, Option.getD_none, Option.getD_some]
  initial hnone hno := by
    cases b? with
    | none => rw [hnone, Option.getD_none, Option.getD_none]
    | some b => exact absurd ((hb b).1 rfl) (hno _)

/-- A table whose sections are tables gives what loading is to give for it. -/
theorem loadsTable_ofTable (ht : (Value.table t).Distinct) (hsections : Sectioned t) (shown : Option Text)
    (o : Overrides) :
    LoadsTable t shown o ((ofTable t).map fun c => override { c with path := shown } o) where
  unknown p hp := by
    cases hfound : (sortKeys t).findSome? unknown? with
    | none => exact absurd hp (not_unknown_of_findSome? hfound p)
    | some e =>
      obtain ⟨first, hfirst, rfl⟩ := firstUnknown_of_findSome? ht hfound
      exact ⟨first, hfirst, by rw [ofTable, hfound]; rfl⟩
  refused hknown h := by
    obtain ⟨sectionName, key, v, hstands, hv⟩ := h
    rw [ofTable_of_not_boolean ht hsections hknown hstands hv]
    rfl
  chosen hknown hbool := by
    obtain ⟨smart, hsmart, hsmartAt⟩ := flag?_of_boolean ht hbool "parser".toList "smart_punctuation".toList
    obtain ⟨definitions, hdefinitions, hdefinitionsAt⟩ :=
      flag?_of_boolean ht hbool "parser".toList "reference_definitions".toList
    obtain ⟨tight, htight, htightAt⟩ := flag?_of_boolean ht hbool "render".toList "tight".toList
    obtain ⟨entities, hentities, hentitiesAt⟩ := flag?_of_boolean ht hbool "render".toList "preserve_entities".toList
    rw [ofTable_eq ht hsections hknown, hsmart, hdefinitions, htight, hentities]
    refine ⟨_, rfl, rfl, ?_⟩
    simp only [settings, List.forall_mem_cons, List.not_mem_nil, false_imp_iff, implies_true, and_true]
    exact ⟨chosen_getD hsmartAt o, chosen_getD hdefinitionsAt o, chosen_getD htightAt o, chosen_getD hentitiesAt o⟩

end

/-! ## Loading -/

section

variable {σ ι : Type} [FileSystem σ ι] {files : σ} {read : Toml.Reader} {path : Text} (o : Overrides)

theorem load_of_has (h : FileSystem.has files path = true) :
    load files (some path) o read = (ofPath files path read).map (·.override o) := by
  rw [load, find, if_pos h]

theorem load_of_discover (h : discover files = some path) :
    load files none o read = (ofPath files path read).map (·.override o) := by
  simp only [load, find, h]

theorem load_of_discover_eq_none (h : discover files = none) : load files none o read = .ok (override {} o) := by
  simp only [load, find, h]
  rfl

/-- The options of a file that is read are those of its table. -/
theorem ofPath_of_readsAt {t : Table} (h : ReadsAt files read path t) :
    (ofPath files path read).map (·.override o) =
      (ofTable t).map fun c => override { c with path := some path } o := by
  obtain ⟨content, text, hcontent, htext, ht⟩ := h
  simp only [ofPath, ofFile, hcontent, Option.bind_some, htext, ht]
  cases ofTable t <;> rfl

/-- A configuration is that of the table it comes from, with what is given for the run. -/
theorem load_eq {path shown : Option Text} {t : Table} (h : Source files read path t shown) :
    load files path o read = (ofTable t).map fun c => override { c with path := shown } o := by
  cases h with
  | named found reads => rw [load_of_has o found, ofPath_of_readsAt o reads]
  | nearest found reads => rw [load_of_discover o found, ofPath_of_readsAt o reads]
  | absent found =>
    have hsorted : sortKeys [] = [] := List.mergeSort_nil
    simp only [load_of_discover_eq_none o found, ofTable, hsorted]
    rfl

/-- **Nothing in a file is passed over, and what is given for a run is before what the file says**: with sections that
are tables, the first place that no setting names is the error; else a value that is no boolean is one; and else there
is a configuration, in which each setting is chosen from what is given, the file and the default. -/
theorem load_of_source {path shown : Option Text} {t : Table} (h : Source files read path t shown)
    (ht : (Value.table t).Distinct) (hsections : Sectioned t) :
    LoadsTable t shown o (load files path o read) := by
  rw [load_eq o h]
  exact loadsTable_ofTable ht hsections shown o

end

/-- The table of a file that sets one option. -/
def tightTable : Table :=
  [(['r', 'e', 'n', 'd', 'e', 'r'], .table [(['t', 'i', 'g', 'h', 't'], .boolean true)])]

/-- Such a file. -/
def tightFile : FileTree :=
  ⟨fun place => if place = [['a']] then some (.file (FileTree.encode
    ['r', 'e', 'n', 'd', 'e', 'r', '.', 't', 'i', 'g', 'h', 't', '=', 't', 'r', 'u', 'e'])) else none, []⟩

theorem standsAt_tightTable_iff {sectionName key : Text} {v : Value} :
    StandsAt tightTable sectionName key v ↔
      sectionName = "render".toList ∧ key = "tight".toList ∧ v = .boolean true := by
  simp [StandsAt, tightTable, and_comm, and_left_comm]

/-- The configuration of this file, as the program reads it, with another option given for the run and the others by
default. -/
theorem load_of_source_tightFile :
    Source tightFile Toml.read? (some ['a']) tightTable (some ['a']) ∧ (Value.table tightTable).Distinct ∧
      Sectioned tightTable ∧
      ∃ c, load tightFile (some ['a']) { smartPunctuation := some true } = .ok c ∧ c.path = some ['a'] ∧
        c.parse.smartPunctuation = true ∧ c.tight = true ∧ c.preserveEntities = true := by
  let text : Text := ['r', 'e', 'n', 'd', 'e', 'r', '.', 't', 'i', 'g', 'h', 't', '=', 't', 'r', 'u', 'e']
  have hplace : tightFile.resolve? ['a'] = some [['a']] := by decide
  have htable : Toml.read? text = some tightTable := rfl
  have hcontent : FileSystem.read? tightFile ['a'] = some (FileTree.encode text) := by
    rw [FileSystem.read?, FileTree.entryAt?_of_resolve? hplace]
    rfl
  have hsource : Source tightFile Toml.read? (some ['a']) tightTable (some ['a']) :=
    .named (by simp [FileSystem.has, FileSystem.find?, hplace])
      ⟨_, _, hcontent, FileTree.decode?_encode text, htable⟩
  have hdistinct := Toml.distinct_of_read? htable
  have hsections : Sectioned tightTable := by
    simp [Sectioned, settings, tightTable]
  refine ⟨hsource, hdistinct, hsections, ?_⟩
  have hknown : ∀ p, ¬ Unknown tightTable p := by
    intro p hp
    cases hp with
    | sectionName hmem hunnamed =>
      obtain ⟨rfl, rfl⟩ := by simpa [tightTable] using hmem
      simp [settings] at hunnamed
    | key hstands _ hunnamed =>
      obtain ⟨rfl, rfl, rfl⟩ := standsAt_tightTable_iff.1 hstands
      simp [settings] at hunnamed
  obtain ⟨c, hc, hpath, hchosen⟩ :=
    (load_of_source { smartPunctuation := some true } hsource hdistinct hsections).chosen hknown
      fun s k v h => ⟨true, (standsAt_tightTable_iff.1 h).2.2⟩
  refine ⟨c, hc, hpath, ?_⟩
  simp only [settings, List.forall_mem_cons] at hchosen
  obtain ⟨hsmart, -, htight, hentities, -⟩ := hchosen
  refine ⟨hsmart.given true rfl, htight.stands rfl true (standsAt_tightTable_iff.2 ⟨rfl, rfl, rfl⟩),
    hentities.initial rfl fun v hv => ?_⟩
  simp [standsAt_tightTable_iff] at hv

end CommonMark.Config
