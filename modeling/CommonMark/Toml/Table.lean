import CommonMark.Toml.Value

/-!
# Building tables

Statements build up the table of a file. A header opens a table that no header and no entry has opened, but
tables may be opened inside it before. Keys with periods open tables that only such keys may fill, and only
from the table where they started. The last table of an array of tables stands for the array in a path.
-/

namespace CommonMark.Toml

/-- A line of a file that says something. -/
inductive Statement where
  /-- The entries that follow are in this table. -/
  | header (path : List Text)
  /-- The entries that follow are in a new table of this array. -/
  | arrayHeader (path : List Text)
  | entry (path : List Text) (value : Value)

/-- How a table was opened. -/
inductive Origin where
  /-- By a header of its own. -/
  | header
  /-- By the header of a table in it. -/
  | inner
  /-- By a key with periods. -/
  | dotted
  deriving DecidableEq, Repr

/-- A value while a table is built. -/
inductive Node where
  | value (v : Value)
  | table (origin : Origin) (entries : List (Text × Node))
  /-- Tables of an array, newest first. -/
  | tables (ts : List (List (Text × Node)))

namespace Node

/-- Entries while a table is built, in the order of their first mention. -/
abbrev Entries := List (Text × Node)

/-- Changes or adds the entry of a key. -/
def update (k : Text) (f : Option Node → Option Node) : Entries → Option Entries
  | [] => (f none).map fun n => [(k, n)]
  | (k', n) :: es =>
    if k' = k then (f (some n)).map fun n => (k', n) :: es
    else (update k f es).map ((k', n) :: ·)

/-- Changes the table at a path of headers, opening tables on the way. -/
def atPath (f : Entries → Option Entries) : List Text → Entries → Option Entries
  | [], es => f es
  | k :: ks, es =>
    update k (fun n? =>
      match n? with
      | none => (atPath f ks []).map (table .inner)
      | some (table origin es) => (atPath f ks es).map (table origin)
      | some (tables (t :: ts)) => (atPath f ks t).map fun t => tables (t :: ts)
      | some (tables []) | some (value _) => none) es

/-- Adds an entry whose key is a path from this table. -/
def addEntry (v : Value) : List Text → Entries → Option Entries
  | [], _ => none
  | [k], es =>
    update k (fun n? =>
      match n? with
      | none => some (value v)
      | some _ => none) es
  | k :: ks, es =>
    update k (fun n? =>
      match n? with
      | none => (addEntry v ks []).map (table .dotted)
      | some (table .dotted es) => (addEntry v ks es).map (table .dotted)
      | some _ => none) es

/-- Opens a table by its header. -/
def openTable (path : List Text) (root : Entries) : Option Entries :=
  match path.getLast? with
  | none => none
  | some k =>
    atPath (update k fun n? =>
      match n? with
      | none => some (table .header [])
      | some (table .inner es) => some (table .header es)
      | some _ => none) path.dropLast root

/-- Opens one more table of an array of tables. -/
def openArrayTable (path : List Text) (root : Entries) : Option Entries :=
  match path.getLast? with
  | none => none
  | some k =>
    atPath (update k fun n? =>
      match n? with
      | none => some (tables [[]])
      | some (tables ts) => some (tables ([] :: ts))
      | some _ => none) path.dropLast root

/-- Takes statements, the first ones in the table at a path. -/
def build (current : List Text) (root : Entries) : List Statement → Option Entries
  | [] => some root
  | .header path :: ss => (openTable path root).bind fun root => build path root ss
  | .arrayHeader path :: ss => (openArrayTable path root).bind fun root => build path root ss
  | .entry path v :: ss => (atPath (addEntry v path) current root).bind fun root => build current root ss

mutual

/-- The value that was built. -/
def finish : Node → Value
  | value v => v
  | table _ es => .table (finishEntries es)
  | tables ts => .array (finishTables ts).reverse

/-- The entries of a table that was built. -/
def finishEntries : List (Text × Node) → Table
  | [] => []
  | (k, n) :: es => (k, finish n) :: finishEntries es

/-- The tables of an array, newest first. -/
def finishTables : List (List (Text × Node)) → List Value
  | [] => []
  | t :: ts => .table (finishEntries t) :: finishTables ts

end

/-- The table that statements build, unless one of them contradicts another. -/
def table? (ss : List Statement) : Option Table := (build [] [] ss).map finishEntries

/-- The table of the entries between braces. -/
def inlineTable? (ps : List (List Text × Value)) : Option Table :=
  (ps.foldlM (fun es p => addEntry p.2 p.1 es) []).map finishEntries

end Node

end CommonMark.Toml
