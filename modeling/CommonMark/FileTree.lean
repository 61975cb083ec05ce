import CommonMark.FileSystem

/-!
# File trees

A file system without links: the files and directories that a program sees, what it may do with them, and the directory
it works in. Paths are texts: names with slashes between them, taken from the working directory unless they start with a
slash. Every name of a path but the last has to be a directory that may be searched, and a slash at the end asks for
one. A write stores all of a content or changes nothing.
-/

namespace CommonMark

/-- Files and directories by the names that lead to them from the root. -/
structure FileTree where
  lookup : List Text → Option FileEntry
  /-- The names that lead to the working directory. -/
  here : List Text

namespace FileTree

/-- Whether names may be looked up at a place: it is a directory that may be searched, as the root is. -/
def isSearchable (t : FileTree) (place : List Text) : Bool :=
  place.isEmpty ||
    match t.lookup place with
    | some (.directory _ searchable) => searchable
    | _ => false

/-- The place that names lead to from a place; none if something on the way is missing or may not be searched. -/
def walk? (t : FileTree) (place : List Text) : List Text → Option (List Text)
  | [] => some place
  | name :: names =>
    if !t.isSearchable place then none
    else if name = [] || name = ['.'] then walk? t place names
    else if name = ['.', '.'] then walk? t place.dropLast names
    else if (t.lookup (place ++ [name])).isSome then walk? t (place ++ [name]) names
    else none

/-- Where a path starts, and its names. -/
def start (t : FileTree) (path : Text) : List Text × List Text :=
  match path with
  | '/' :: names => ([], names.splitOn '/')
  | names => (t.here, names.splitOn '/')

/-- The place of a path. -/
def resolve? (t : FileTree) (path : Text) : Option (List Text) :=
  if path.isEmpty then none
  else
    let (place, names) := t.start path
    t.walk? place names

/-- The text that bytes encode in UTF-8. -/
def decode? (content : ByteArray) : Option Text := (String.fromUTF8? content).map String.toList

/-- The bytes of a text in UTF-8. -/
def encode (t : Text) : ByteArray := (String.ofList t).toUTF8

/-- The tree with a file at a place. A file that stood there keeps its rights. -/
def put (t : FileTree) (place : List Text) (content : ByteArray) : FileTree :=
  let rights : Rights :=
    match t.lookup place with
    | some (.file _ rights) => rights
    | _ => {}
  { t with lookup := fun p => if p = place then some (.file content rights) else t.lookup p }

/-- Whether a file may be written under a name in a directory: nothing stands there but a file that allows it, or else
the directory takes new files. -/
def takes (t : FileTree) (dir : List Text) (name : Text) : Bool :=
  match t.lookup (dir ++ [name]), t.lookup dir with
  | some (.file _ rights), _ => rights.write
  | some _, _ => false
  | none, some (.directory takesFiles _) => takesFiles
  | none, _ => true

/-- The place that a file at a path is written to: the names before the last lead to a directory, in which the file
may be written. -/
def target? (t : FileTree) (path : Text) : Option (List Text) :=
  let (place, names) := t.start path
  match names.getLast? with
  | none => none
  | some name =>
    if name = [] || name = ['.'] || name = ['.', '.'] then none
    else
      (t.walk? place names.dropLast).bind fun dir =>
        if t.isSearchable dir && t.takes dir name then some (dir ++ [name]) else none

/-- The tree after a file was written, all of it or nothing. -/
def write? (t : FileTree) (path : Text) (content : ByteArray) : Option FileTree :=
  (t.target? path).map (t.put · content)

/-- The path of a place from the root. -/
def pathOf (place : List Text) : Text :=
  if place.isEmpty then ['/'] else place.flatMap ('/' :: ·)

instance : FileSystem FileTree (List Text) where
  here? t := some t.here
  find? := resolve?
  entryOf? := lookup
  write t path content :=
    match t.write? path content with
    | some t' => (t', true)
    | none => (t, false)

/-- What reading at a path gives. -/
def read? (t : FileTree) (path : Text) : Option ByteArray := FileSystem.read? t path

end FileTree

end CommonMark
