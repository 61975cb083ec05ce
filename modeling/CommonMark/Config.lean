import CommonMark.FileTree
import CommonMark.Markup
import CommonMark.Toml.Reader

/-!
# Configuration

Four options in two sections, each of which may come from the command line, from a file, or by default, in
this order. The file is the one that is named, or else the nearest of the usual name in the working directory
or above it. A file with an unknown section or key is refused, the first one by the bytes of its name, before
any value is looked at. Any file system will do, and any reader of the format.
-/

namespace CommonMark

/-- The name of a configuration file. -/
def Config.fileName : Text := "cmout.toml".toList

/-- The options, with the path of the file that some of them come from. -/
structure Config where
  parse : ParseOptions := {}
  /-- Whether paragraphs outside of lists are shown bare. -/
  tight : Bool := false
  /-- Whether character references in addresses, titles and languages are kept. -/
  preserveEntities : Bool := true
  path : Option Text := none
  deriving DecidableEq, Repr

/-- Options that are given for one run. -/
structure Overrides where
  smartPunctuation : Option Bool := none
  referenceDefinitions : Option Bool := none
  tight : Option Bool := none
  preserveEntities : Option Bool := none
  deriving DecidableEq, Repr

/-- Why a configuration cannot be loaded. -/
inductive ConfigError where
  | notFound (path : Text)
  /-- The file cannot be read, or is not UTF-8. -/
  | unreadable
  /-- The file is not TOML, or a value has the wrong type. -/
  | malformed
  | unknownSection (name : Text)
  | unknownKey (sectionName key : Text)
  deriving DecidableEq, Repr

namespace ConfigError

/-- The error in words. -/
def message : ConfigError → Text
  | notFound path => "Configuration file not found: ".toList ++ path
  | unreadable => "I/O error".toList
  | malformed => "TOML parse error".toList
  | unknownSection name => "Configuration error: unknown section [".toList ++ name ++ [']']
  | unknownKey sectionName key =>
    "Configuration error: unknown key ".toList ++ sectionName ++ '.' :: key

end ConfigError

namespace Config

open Toml (Table Value)

/-- A section: its name, and the names of its two options. -/
structure Section where
  name : Text
  first : Text
  second : Text

/-- The section about parsing. -/
def parserSection : Section :=
  ⟨"parser".toList, "smart_punctuation".toList, "reference_definitions".toList⟩

/-- The section about rendering. -/
def renderSection : Section := ⟨"render".toList, "tight".toList, "preserve_entities".toList⟩

/-- The section of a name. -/
def section? (name : Text) : Option Section :=
  [parserSection, renderSection].find? fun s => s.name == name

/-- Entries in the order of the bytes of their keys. -/
def sortKeys (t : Table) : Table := t.mergeSort fun a b => Text.isOrdered a.1 b.1

/-- What is unknown about an entry of the file; the first such entry is what `validate_keys` reports. -/
def unknown? (entry : Text × Value) : Option ConfigError :=
  match section? entry.1 with
  | none => some (.unknownSection entry.1)
  | some s =>
    match entry.2 with
    | .table fields =>
      ((sortKeys fields).find? fun f => f.1 ≠ s.first && f.1 ≠ s.second).map fun f => .unknownKey s.name f.1
    | _ => none

/-- The boolean at a place where a value may be missing. -/
def flag? : Option Value → Except ConfigError (Option Bool)
  | none => .ok none
  | some (.boolean b) => .ok (some b)
  | some _ => .error .malformed

/-- The two options of a section. An array gives them by position, and a date gives none. -/
def options? (s : Section) : Option Value → Except ConfigError (Option Bool × Option Bool)
  | none | some (.dateTime _) => .ok (none, none)
  | some (.table fields) => do
    .ok (← flag? (fields.lookup s.first), ← flag? (fields.lookup s.second))
  | some (.array items) => do .ok (← flag? items[0]?, ← flag? items[1]?)
  | some _ => .error .malformed

/-- The options that a table gives. -/
def ofTable (t : Table) : Except ConfigError Config :=
  match (sortKeys t).findSome? unknown? with
  | some e => .error e
  | none => do
    let (smart, definitions) ← options? parserSection (t.lookup parserSection.name)
    let (tight, entities) ← options? renderSection (t.lookup renderSection.name)
    let d : Config := {}
    .ok
      { parse :=
          { smartPunctuation := smart.getD d.parse.smartPunctuation
            referenceDefinitions := definitions.getD d.parse.referenceDefinitions }
        tight := tight.getD d.tight
        preserveEntities := entities.getD d.preserveEntities }

/-- The options that the bytes of a file give. -/
def ofFile (content : Option ByteArray) (read : Toml.Reader) : Except ConfigError Config :=
  match content.bind FileTree.decode? with
  | none => .error .unreadable
  | some text =>
    match read text with
    | none => .error .malformed
    | some t => ofTable t

/-- Options with some of them given for this run (`Config::apply_cli_settings`). -/
def override (c : Config) (o : Overrides) : Config :=
  { c with
    parse :=
      { smartPunctuation := o.smartPunctuation.getD c.parse.smartPunctuation
        referenceDefinitions := o.referenceDefinitions.getD c.parse.referenceDefinitions }
    tight := o.tight.getD c.tight
    preserveEntities := o.preserveEntities.getD c.preserveEntities }

/-- The path of the configuration file in a directory. -/
def candidate (dir : List Text) : Text := FileTree.pathOf (dir ++ [fileName])

section

variable {σ ι : Type} [FileSystem σ ι] (files : σ)

/-- The path of the configuration file in a directory, or else in the nearest one above it that has one
(`discover_from`). -/
def discoverFrom (dir : List Text) : Option Text :=
  if FileSystem.isFile files (candidate dir) then some (candidate dir)
  else if _ : dir = [] then none
  else discoverFrom dir.dropLast
termination_by dir.length
decreasing_by
  rw [List.length_dropLast]
  exact Nat.sub_lt (List.length_pos_iff.2 ‹dir ≠ []›) Nat.zero_lt_one

/-- The path of the file that is found when none is named (`Config::discover_config`). -/
def discover : Option Text := (FileSystem.here? files).bind (discoverFrom files)

/-- The options of the file at a path (`Config::load_from_file`). -/
def ofPath (path : Text) (read : Toml.Reader) : Except ConfigError Config := do
  .ok { ← ofFile (FileSystem.read? files path) read with path := some path }

/-- The options before any are given for this run. -/
def find (path : Option Text) (read : Toml.Reader) : Except ConfigError Config :=
  match path with
  | some path => if FileSystem.has files path then ofPath files path read else .error (.notFound path)
  | none =>
    match discover files with
    | some path => ofPath files path read
    | none => .ok {}

/-- The options for a run, with the path of a configuration file if one is named (`Config::load`). -/
def load (path : Option Text) (o : Overrides) (read : Toml.Reader := Toml.read?) : Except ConfigError Config :=
  (find files path read).map (·.override o)

end

end Config

end CommonMark
