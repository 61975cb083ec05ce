import CommonMark.Text.Basic

/-!
# File systems

What a program asks of files, and how it changes them. A path leads through links to what stands at its end. What cannot
be looked up is not found, and that is no error: nothing stands there, or something on the way is no directory or may
not be searched. Reading and writing may fail.
-/

namespace CommonMark

/-- What a program may do with a file. -/
structure Rights where
  read : Bool := true
  write : Bool := true
  deriving DecidableEq, Repr

/-- What a path may lead to. -/
inductive FileEntry where
  /-- A regular file. -/
  | file (content : ByteArray) (rights : Rights := {})
  /-- A directory may refuse new files, and it may refuse to be searched. -/
  | directory (takesFiles : Bool := true) (searchable : Bool := true)
  /-- A device, a pipe or the like, with what reading it gives. -/
  | special (content : Option ByteArray := none)

namespace FileEntry

/-- Whether it is a regular file. -/
def isRegular : FileEntry → Bool
  | file .. => true
  | _ => false

/-- What reading it gives; nothing if that fails. -/
def read? : FileEntry → Option ByteArray
  | file content rights => if rights.read then some content else none
  | directory .. => none
  | special content => content

end FileEntry

/-- The states of a file system, what paths lead to in them, and what writing does to them. -/
class FileSystem (σ : Type) (ι : outParam Type) where
  /-- The names that lead from the root to the working directory, if that can be told. -/
  here? : σ → Option (List Text)
  /-- The thing that a path leads to, if it is found. Several paths may lead to one thing. -/
  find? : σ → Text → Option ι
  entryOf? : σ → ι → Option FileEntry
  /-- The state after an attempt to write a file, and whether it went through. -/
  write : σ → Text → ByteArray → σ × Bool

namespace FileSystem

variable {σ ι : Type} [FileSystem σ ι]

/-- Whether a path leads to anything (`Path::exists`). -/
def has (files : σ) (path : Text) : Bool := (find? files path).isSome

/-- What a path leads to. -/
def entryAt? (files : σ) (path : Text) : Option FileEntry := (find? files path).bind (entryOf? files)

/-- Whether a path leads to a regular file (`Path::is_file`). -/
def isFile (files : σ) (path : Text) : Bool := (entryAt? files path).any (·.isRegular)

/-- What reading at a path gives (`fs::read`). -/
def read? (files : σ) (path : Text) : Option ByteArray := (entryAt? files path).bind (·.read?)

end FileSystem

end CommonMark
