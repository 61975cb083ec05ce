import CommonMark.Command

/-!
# The command line

Takes a view of the files that a run can ask for, runs the program on it, and carries out what it decided.
-/

namespace CommonMark.Command

/-- What stands at a place of the file system. -/
def look (place : List Text) : IO (Option FileEntry) := do
  let path := (← IO.currentDir) / String.ofList (FileTree.pathOf place)
  if ← path.isDir then return some (.directory true)
  try
    return some (.file (← IO.FS.readBinFile path))
  catch _ => return if ← path.pathExists then some (.file .empty ⟨false, true⟩) else none

/-- The places on the way that names lead from a place. -/
def placesOf (place : List Text) : List Text → List (List Text)
  | [] => [place]
  | name :: names =>
    if name = [] || name = ['.'] then placesOf place names
    else if name = ['.', '.'] then placesOf place.dropLast names
    else place :: placesOf (place ++ [name]) names

/-- The places that rendering may ask about. -/
def placesFor (here : List Text) (a : RenderArguments) : List (List Text) :=
  let paths := a.input.toList ++ a.output.toList ++ a.config.toList
  let files : FileTree := ⟨fun _ => none, here⟩
  paths.flatMap (fun path => placesOf (files.start path).1 (files.start path).2) ++ placesOf [] here ++
    (List.range (here.length + 1)).map fun n => here.take n ++ [Config.fileName]

/-- A view of the files at some places. -/
def survey (here : List Text) (places : List (List Text)) : IO FileTree := do
  let entries ← places.mapM fun place => do return (place, ← look place)
  return ⟨fun place => (entries.lookup place).join, here⟩

/-- All that is left of a stream. -/
partial def readAll (s : IO.FS.Stream) (before : ByteArray) : IO ByteArray := do
  let chunk ← s.read 65536
  if chunk.isEmpty then return before
  readAll s (before ++ chunk)

/-- Writes the file that a run wrote, and tells whether that succeeded. -/
def carryOut (o : Outcome FileTree) (path : Text) : IO Bool := do
  match FileSystem.entryAt? o.files path with
  | some (.file content _) =>
    try
      IO.FS.writeBinFile ((← IO.currentDir) / String.ofList path) content
      return true
    catch _ => return false
  | _ => return true

/-- Shows an outcome. -/
def present (o : Outcome FileTree) : IO UInt32 := do
  let stdout ← IO.getStdout
  stdout.write (FileTree.encode o.output)
  stdout.flush
  if let some m := o.message then IO.eprintln (String.ofList m)
  return o.status.toUInt32

/-- Carries out a run. -/
def perform (args : List Text) : IO UInt32 := do
  let directory ← IO.currentDir
  let here := (directory.toString.toList.splitOn '/').filter (· ≠ [])
  match Request.ofArguments? args with
  | some (.render a) =>
    let files ← survey here (placesFor here a)
    let stdin ← if a.input.isSome then pure .empty else readAll (← IO.getStdin) .empty
    let o := run args stdin files
    match a.output with
    | some path =>
      if o.status = 0 && !(← carryOut o path) then
        present (.failed .io files)
      else present o
    | none => present o
  | _ => present (run args none (⟨fun _ => none, here⟩ : FileTree))

end CommonMark.Command

/-- Runs the program on the arguments of the command line. -/
def main (args : List String) : IO UInt32 := CommonMark.Command.perform (args.map String.toList)
