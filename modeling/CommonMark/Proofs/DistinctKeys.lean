import CommonMark.Toml.Reader

/-!
# No key stands twice

The table of a file is built up by headers and entries in any order, and a path may lead through tables that others
opened. A key that is there is changed where it stands and any other is added (`update_eq_some`), so every change that
keeps the keys of one table apart keeps those of all of them apart (`keeps_atPath`), and so do statements one after the
other (`keeps_build`). In the table that is read no key stands twice, at any depth (`distinct_of_read?`): what a search
for a key finds is all that stands at it (`mem_iff_lookup`).
-/

namespace CommonMark.Toml

/-- Whether no key stands twice in a table of a value, at any depth. -/
inductive Value.Distinct : Value → Prop where
  | string (t : Text) : (Value.string t).Distinct
  | integer (n : Int) : (Value.integer n).Distinct
  | float (written : Text) : (Value.float written).Distinct
  | boolean (b : Bool) : (Value.boolean b).Distinct
  | dateTime (written : Text) : (Value.dateTime written).Distinct
  | array {items : List Value} (items_distinct : ∀ v ∈ items, v.Distinct) : (Value.array items).Distinct
  | table {entries : Table} (keys : (entries.map Prod.fst).Nodup) (values : ∀ e ∈ entries, e.2.Distinct) :
    (Value.table entries).Distinct

theorem Value.Distinct.nodup {entries : Table} (h : (Value.table entries).Distinct) :
    (entries.map Prod.fst).Nodup := by
  cases h
  assumption

theorem Value.Distinct.of_mem {entries : Table} (h : (Value.table entries).Distinct) {k : Text} {v : Value}
    (hmem : (k, v) ∈ entries) : v.Distinct := by
  cases h with
  | table keys values => exact values _ hmem

/-- Whether no key stands twice in the value of a statement, if it has one. -/
def Statement.Distinct : Statement → Prop
  | .header _ | .arrayHeader _ => True
  | .entry _ v => v.Distinct

namespace Node

/-- Whether no key stands twice in a table while it is built, at any depth. -/
inductive Distinct : Node → Prop where
  | value {v : Value} (h : v.Distinct) : (Node.value v).Distinct
  | table {origin : Origin} {es : Entries} (keys : (es.map Prod.fst).Nodup) (nodes : ∀ e ∈ es, e.2.Distinct) :
    (Node.table origin es).Distinct
  | tables {ts : List Entries} (keys : ∀ es ∈ ts, (es.map Prod.fst).Nodup)
    (nodes : ∀ es ∈ ts, ∀ e ∈ es, e.2.Distinct) : (Node.tables ts).Distinct

/-- Whether no key stands twice among entries, at any depth. -/
structure DistinctEntries (es : Entries) : Prop where
  keys : (es.map Prod.fst).Nodup
  nodes : ∀ e ∈ es, e.2.Distinct

/-- Whether a change of what a key leads to, which may be nothing, keeps keys apart. -/
def KeepsNode (f : Option Node → Option Node) : Prop :=
  ∀ ⦃n? n'⦄, (∀ n, n? = some n → n.Distinct) → f n? = some n' → n'.Distinct

/-- Whether a change of entries keeps keys apart. -/
def Keeps (f : Entries → Option Entries) : Prop :=
  ∀ ⦃es es'⦄, DistinctEntries es → f es = some es' → DistinctEntries es'

theorem distinctEntries_nil : DistinctEntries [] := ⟨List.nodup_nil, by simp⟩

theorem distinct_table_iff {origin : Origin} {es : Entries} : (Node.table origin es).Distinct ↔ DistinctEntries es :=
  ⟨fun | .table keys nodes => ⟨keys, nodes⟩, fun h => .table h.keys h.nodes⟩

theorem distinct_tables_iff {ts : List Entries} : (Node.tables ts).Distinct ↔ ∀ es ∈ ts, DistinctEntries es :=
  ⟨fun h es hes => by cases h with | tables keys nodes => exact ⟨keys es hes, nodes es hes⟩,
    fun h => .tables (fun es hes => (h es hes).keys) fun es hes => (h es hes).nodes⟩

/-! ## Changes of a table -/

/-- What an update can do: change the entry of a key where it stands, or add one at the end. -/
theorem update_eq_some {k : Text} {f : Option Node → Option Node} {es es' : Entries} (h : update k f es = some es') :
    (∃ before n after n', es = before ++ (k, n) :: after ∧ f (some n) = some n' ∧ es' = before ++ (k, n') :: after) ∨
      k ∉ es.map Prod.fst ∧ ∃ n', f none = some n' ∧ es' = es ++ [(k, n')] := by
  induction es generalizing es' with
  | nil =>
    obtain ⟨n', hn', rfl⟩ := Option.map_eq_some_iff.1 h
    exact .inr ⟨List.not_mem_nil, n', hn', rfl⟩
  | cons e es ih =>
    obtain ⟨k', n⟩ := e
    rw [update] at h
    split at h
    next heq =>
      obtain ⟨n', hn', rfl⟩ := Option.map_eq_some_iff.1 h
      exact .inl ⟨[], n, es, n', by rw [heq]; rfl, hn', by rw [heq]; rfl⟩
    next hne =>
      obtain ⟨rest, hrest, rfl⟩ := Option.map_eq_some_iff.1 h
      rcases ih hrest with ⟨before, m, after, n', rfl, hn', rfl⟩ | ⟨hk, n', hn', rfl⟩
      · exact .inl ⟨(k', n) :: before, m, after, n', rfl, hn', rfl⟩
      · exact .inr ⟨by simpa [Ne.symm hne] using hk, n', hn', rfl⟩

theorem keeps_update {f : Option Node → Option Node} (hf : KeepsNode f) (k : Text) : Keeps (update k f) := by
  intro es es' hes h
  rcases update_eq_some h with ⟨before, n, after, n', rfl, hn', rfl⟩ | ⟨hk, n', hn', rfl⟩
  · have hn : n'.Distinct := hf (fun m hm => by cases hm; exact hes.nodes (k, n) (by simp)) hn'
    refine ⟨by simpa using hes.keys, fun e he => ?_⟩
    rcases List.mem_append.1 he with he | he
    · exact hes.nodes e (by simp [he])
    · rcases List.mem_cons.1 he with rfl | he
      · exact hn
      · exact hes.nodes e (by simp [he])
  · have hn : n'.Distinct := hf (fun m hm => by cases hm) hn'
    refine ⟨?_, fun e he => ?_⟩
    · rw [List.map_append, List.nodup_append]
      exact ⟨hes.keys, by simp, fun a ha b hb => by rintro rfl; simp_all⟩
    · rcases List.mem_append.1 he with he | he
      · exact hes.nodes e he
      · rwa [List.mem_singleton.1 he]

/-- So does a change of a table inside, by induction on the path to it. -/
theorem keeps_atPath {f : Entries → Option Entries} (hf : Keeps f) (ks : List Text) : Keeps (atPath f ks) := by
  induction ks with
  | nil => exact hf
  | cons k ks ih =>
    refine keeps_update (fun n? n' hn hn' => ?_) k
    split at hn'
    · obtain ⟨es, hes, rfl⟩ := Option.map_eq_some_iff.1 hn'
      exact distinct_table_iff.2 (ih distinctEntries_nil hes)
    · obtain ⟨es, hes, rfl⟩ := Option.map_eq_some_iff.1 hn'
      exact distinct_table_iff.2 (ih (distinct_table_iff.1 (hn _ rfl)) hes)
    · obtain ⟨es, hes, rfl⟩ := Option.map_eq_some_iff.1 hn'
      obtain ⟨hfirst, hrest⟩ := List.forall_mem_cons.1 (distinct_tables_iff.1 (hn _ rfl))
      exact distinct_tables_iff.2 (List.forall_mem_cons.2 ⟨ih hfirst hes, hrest⟩)
    · cases hn'
    · cases hn'

theorem keeps_addEntry {v : Value} (hv : v.Distinct) (ks : List Text) : Keeps (addEntry v ks) := by
  induction ks with
  | nil => exact fun es es' _ h => by simp [addEntry] at h
  | cons k ks ih =>
    cases ks with
    | nil =>
      refine keeps_update (fun n? n' hn hn' => ?_) k
      split at hn'
      · cases hn'
        exact .value hv
      · cases hn'
    | cons k' ks =>
      refine keeps_update (fun n? n' hn hn' => ?_) k
      split at hn'
      · obtain ⟨es, hes, rfl⟩ := Option.map_eq_some_iff.1 hn'
        exact distinct_table_iff.2 (ih distinctEntries_nil hes)
      · obtain ⟨es, hes, rfl⟩ := Option.map_eq_some_iff.1 hn'
        exact distinct_table_iff.2 (ih (distinct_table_iff.1 (hn _ rfl)) hes)
      · cases hn'

/-- So does a change of the last key of a path. -/
theorem keeps_atLast {f : Option Node → Option Node} (hf : KeepsNode f) (path : List Text) :
    Keeps fun root =>
      match path.getLast? with
      | none => none
      | some k => atPath (update k f) path.dropLast root := by
  intro root root' hroot h
  cases hlast : path.getLast? with
  | none => simp [hlast] at h
  | some k =>
    simp only [hlast] at h
    exact keeps_atPath (keeps_update hf k) _ hroot h

theorem keeps_openTable (path : List Text) : Keeps (openTable path) := by
  refine keeps_atLast (fun n? n' hn hn' => ?_) path
  split at hn'
  · cases hn'
    exact distinct_table_iff.2 distinctEntries_nil
  · cases hn'
    exact distinct_table_iff.2 (distinct_table_iff.1 (hn _ rfl))
  · cases hn'

theorem keeps_openArrayTable (path : List Text) : Keeps (openArrayTable path) := by
  refine keeps_atLast (fun n? n' hn hn' => ?_) path
  split at hn'
  · cases hn'
    exact distinct_tables_iff.2 (by simp [distinctEntries_nil])
  · cases hn'
    exact distinct_tables_iff.2 (List.forall_mem_cons.2 ⟨distinctEntries_nil, distinct_tables_iff.1 (hn _ rfl)⟩)
  · cases hn'

/-! ## Tables that are built -/

theorem keeps_build {ss : List Statement} (hss : ∀ s ∈ ss, s.Distinct) (current : List Text) :
    Keeps fun root => build current root ss := by
  induction ss generalizing current with
  | nil => exact fun es es' hes h => by cases h; exact hes
  | cons s ss ih =>
    obtain ⟨hs, hrest⟩ := List.forall_mem_cons.1 hss
    intro root root' hroot h
    cases s with
    | header path =>
      obtain ⟨mid, hmid, h⟩ := Option.bind_eq_some_iff.1 h
      exact ih hrest path (keeps_openTable path hroot hmid) h
    | arrayHeader path =>
      obtain ⟨mid, hmid, h⟩ := Option.bind_eq_some_iff.1 h
      exact ih hrest path (keeps_openArrayTable path hroot hmid) h
    | entry path v =>
      obtain ⟨mid, hmid, h⟩ := Option.bind_eq_some_iff.1 h
      exact ih hrest current (keeps_atPath (keeps_addEntry hs path) current hroot hmid) h

theorem finishEntries_eq_map (es : Entries) : finishEntries es = es.map fun e => (e.1, finish e.2) := by
  induction es with
  | nil => rfl
  | cons e es ih => rw [finishEntries, ih, List.map_cons]

theorem finishTables_eq_map (ts : List Entries) : finishTables ts = ts.map fun es => .table (finishEntries es) := by
  induction ts with
  | nil => rfl
  | cons es ts ih => rw [finishTables, ih, List.map_cons]

/-- A table that was built turns into one of the same keys. -/
theorem distinct_finishEntries {es : Entries} (keys : (es.map Prod.fst).Nodup)
    (nodes : ∀ e ∈ es, e.2.finish.Distinct) : (Value.table (finishEntries es)).Distinct := by
  rw [finishEntries_eq_map]
  refine .table (by simpa [Function.comp_def] using keys) fun e he => ?_
  obtain ⟨e', he', rfl⟩ := List.mem_map.1 he
  exact nodes e' he'

theorem distinct_finish {n : Node} (h : n.Distinct) : n.finish.Distinct := by
  induction h with
  | value h => exact h
  | table keys _ ih => exact distinct_finishEntries keys ih
  | tables keys _ ih =>
    rw [finish]
    refine .array fun v hv => ?_
    rw [List.mem_reverse, finishTables_eq_map] at hv
    obtain ⟨es, hes, rfl⟩ := List.mem_map.1 hv
    exact distinct_finishEntries (keys es hes) (ih es hes)

theorem DistinctEntries.finish {es : Entries} (h : DistinctEntries es) : (Value.table (finishEntries es)).Distinct :=
  distinct_finishEntries h.keys fun e he => distinct_finish (h.nodes e he)

theorem distinct_table? {ss : List Statement} (hss : ∀ s ∈ ss, s.Distinct) {t : Table} (h : table? ss = some t) :
    (Value.table t).Distinct := by
  obtain ⟨root, hroot, rfl⟩ := Option.map_eq_some_iff.1 h
  exact (keeps_build hss [] distinctEntries_nil hroot).finish

theorem keeps_addEntries {ps : List (List Text × Value)} (hps : ∀ p ∈ ps, p.2.Distinct) :
    Keeps fun es => ps.foldlM (fun es p => addEntry p.2 p.1 es) es := by
  induction ps with
  | nil => exact fun es es' hes h => by cases h; exact hes
  | cons p ps ih =>
    obtain ⟨hp, hrest⟩ := List.forall_mem_cons.1 hps
    intro es es' hes h
    obtain ⟨mid, hmid, h⟩ := Option.bind_eq_some_iff.1 (List.foldlM_cons.symm.trans h)
    exact ih hrest (keeps_addEntry hp p.1 hes hmid) h

theorem distinct_inlineTable? {ps : List (List Text × Value)} (hps : ∀ p ∈ ps, p.2.Distinct) {t : Table}
    (h : inlineTable? ps = some t) : (Value.table t).Distinct := by
  obtain ⟨es, hes, rfl⟩ := Option.map_eq_some_iff.1 h
  exact (keeps_addEntries hps distinctEntries_nil hes).finish

end Node

/-! ## Values that are read -/

theorem distinct_of_scalar? {t : Text} {v : Value} (h : scalar? t = some v) : v.Distinct := by
  unfold scalar? at h
  repeat' split at h
  all_goals cases h
  all_goals constructor

theorem distinct_of_bare? {t t' : Text} {v : Value} (h : bare? t = some (v, t')) : v.Distinct := by
  simp only [bare?] at h
  repeat' split at h
  all_goals
    obtain ⟨v', hv', heq⟩ := Option.map_eq_some_iff.1 h
    cases heq
    exact distinct_of_scalar? hv'

/-- What is read with so much fuel: values, items of arrays, and entries of inline tables. -/
structure ReadsDistinct (fuel : Nat) : Prop where
  value : ∀ {depth t v t'}, value? fuel depth t = some (v, t') → v.Distinct
  items : ∀ {depth t vs t'}, items? fuel depth t = some (vs, t') → ∀ v ∈ vs, v.Distinct
  pairs : ∀ {depth t ps t'}, pairs? fuel depth t = some (ps, t') → ∀ p ∈ ps, p.2.Distinct

namespace ReadsDistinct

variable {n : Nat} (ih : ReadsDistinct n)
include ih

theorem value_succ {depth : Nat} {t t' : Text} {v : Value} (h : value? (n + 1) depth t = some (v, t')) :
    v.Distinct := by
  unfold value? at h
  split at h
  next => contradiction
  next => cases h
  next => cases h
  next m depth t hm =>
    cases hm
    obtain ⟨⟨vs, rest⟩, hvs, heq⟩ := Option.map_eq_some_iff.1 h
    cases heq
    exact .array (ih.items hvs)
  next m depth t hm =>
    cases hm
    obtain ⟨⟨ps, rest⟩, hps, h⟩ := Option.bind_eq_some_iff.1 h
    obtain ⟨entries, hentries, h⟩ := Option.bind_eq_some_iff.1 h
    cases h
    exact Node.distinct_inlineTable? (ih.pairs hps) hentries
  next =>
    split at h
    next =>
      obtain ⟨⟨s, rest⟩, -, heq⟩ := Option.map_eq_some_iff.1 h
      cases heq
      exact .string s
    next =>
      obtain ⟨⟨s, rest⟩, -, heq⟩ := Option.map_eq_some_iff.1 h
      cases heq
      exact .string s
    next => exact distinct_of_bare? h

theorem items_succ {depth : Nat} {t t' : Text} {vs : List Value} (h : items? (n + 1) depth t = some (vs, t')) :
    ∀ v ∈ vs, v.Distinct := by
  rw [items?] at h
  obtain ⟨t, -, h⟩ := Option.bind_eq_some_iff.1 h
  split at h
  next => cases h; simp
  next =>
    obtain ⟨⟨v, t⟩, hv, h⟩ := Option.bind_eq_some_iff.1 h
    obtain ⟨t, -, h⟩ := Option.bind_eq_some_iff.1 h
    split at h
    next => cases h; simpa using ih.value hv
    next =>
      obtain ⟨⟨vs, rest⟩, hvs, heq⟩ := Option.map_eq_some_iff.1 h
      cases heq
      exact List.forall_mem_cons.2 ⟨ih.value hv, ih.items hvs⟩
    next => cases h

theorem pairs_succ {depth : Nat} {t t' : Text} {ps : List (List Text × Value)}
    (h : pairs? (n + 1) depth t = some (ps, t')) : ∀ p ∈ ps, p.2.Distinct := by
  rw [pairs?] at h
  obtain ⟨t, -, h⟩ := Option.bind_eq_some_iff.1 h
  split at h
  next => cases h; simp
  next =>
    obtain ⟨⟨ks, t⟩, -, h⟩ := Option.bind_eq_some_iff.1 h
    dsimp only at h
    split at h
    next =>
      obtain ⟨⟨v, t⟩, hv, h⟩ := Option.bind_eq_some_iff.1 h
      obtain ⟨t, -, h⟩ := Option.bind_eq_some_iff.1 h
      split at h
      next => cases h; simpa using ih.value hv
      next =>
        obtain ⟨⟨ps, rest⟩, hps, heq⟩ := Option.map_eq_some_iff.1 h
        cases heq
        exact List.forall_mem_cons.2 ⟨ih.value hv, ih.pairs hps⟩
      next => cases h
    next => cases h

end ReadsDistinct

theorem readsDistinct (fuel : Nat) : ReadsDistinct fuel := by
  induction fuel with
  | zero => exact ⟨fun h => by simp [value?] at h, fun h => by simp [items?] at h, fun h => by simp [pairs?] at h⟩
  | succ n ih => exact ⟨ih.value_succ, ih.items_succ, ih.pairs_succ⟩

/-! ## Files -/

theorem distinct_of_statement? {t t' : Text} {s : Statement} (h : statement? t = some (s, t')) : s.Distinct := by
  simp only [statement?] at h
  split at h
  next =>
    obtain ⟨⟨ks, rest⟩, -, h⟩ := Option.bind_eq_some_iff.1 h
    split at h
    next => cases h; trivial
    next => cases h
  next =>
    obtain ⟨⟨ks, rest⟩, -, h⟩ := Option.bind_eq_some_iff.1 h
    split at h
    next => cases h; trivial
    next => cases h
  next =>
    obtain ⟨⟨ks, rest⟩, -, h⟩ := Option.bind_eq_some_iff.1 h
    split at h
    next =>
      obtain ⟨⟨v, rest⟩, hv, h⟩ := Option.bind_eq_some_iff.1 h
      cases h
      exact (readsDistinct _).value hv
    next => cases h

theorem distinct_of_statements? {n : Nat} {t : Text} {ss : List Statement} (h : statements? n t = some ss) :
    ∀ s ∈ ss, s.Distinct := by
  induction n generalizing t ss with
  | zero => simp [statements?] at h
  | succ n ih =>
    rw [statements?] at h
    obtain ⟨t, -, h⟩ := Option.bind_eq_some_iff.1 h
    split at h
    next => cases h; simp
    next =>
      obtain ⟨⟨s, t⟩, hs, h⟩ := Option.bind_eq_some_iff.1 h
      obtain ⟨t, -, h⟩ := Option.bind_eq_some_iff.1 h
      obtain ⟨rest, hrest, rfl⟩ := Option.map_eq_some_iff.1 h
      exact List.forall_mem_cons.2 ⟨distinct_of_statement? hs, ih hrest⟩

/-- In the table of a file no key stands twice, at any depth. -/
theorem distinct_of_read? {t : Text} {table : Table} (h : read? t = some table) : (Value.table table).Distinct := by
  obtain ⟨ss, hss, htable⟩ := Option.bind_eq_some_iff.1 h
  exact Node.distinct_table? (distinct_of_statements? hss) htable

/-! ## What a key leads to -/

section

variable {t : Table}

/-- With no key twice, the value that a key leads to is the one that stands at it. -/
theorem mem_iff_lookup (h : (t.map Prod.fst).Nodup) {k : Text} {v : Value} : (k, v) ∈ t ↔ t.lookup k = some v := by
  rw [List.lookup_eq_some_iff]
  constructor
  · intro hmem
    obtain ⟨before, after, rfl⟩ := List.append_of_mem hmem
    refine ⟨before, after, rfl, fun p hp => ?_⟩
    rw [List.map_append, List.nodup_append] at h
    simpa using (h.2.2 p.1 (List.mem_map_of_mem hp) k (by simp)).symm
  · rintro ⟨before, after, rfl, -⟩
    simp

/-- With no key twice, one value stands at a key. -/
theorem eq_of_mem (h : (t.map Prod.fst).Nodup) {k : Text} {v w : Value} (hv : (k, v) ∈ t) (hw : (k, w) ∈ t) : v = w :=
  Option.some.inj (((mem_iff_lookup h).1 hv).symm.trans ((mem_iff_lookup h).1 hw))

end

end CommonMark.Toml
