import CommonMark.Command.Arguments
import CommonMark.Html.Render

/-!
# The program

A run takes arguments, the standard input and the files, and gives an exit status, what is written to the
standard output, a message, and the files as they are afterwards. Rendering loads the configuration, reads the
input, renders it and writes the result, in this order; the first step that fails ends the run, and only the
last one changes anything.
-/

namespace CommonMark.Command

/-- The name and number of the program. -/
def version : Text := "cmout 0.1.0\n".toList

/-- What takes the standard output: it takes all of a content, or it fails after some of its bytes. -/
abbrev Stdout : Type := ByteArray → Option Nat

/-- The readers that a run uses. -/
structure Readers where
  markup : Markup.Reader := Markup.read
  toml : Toml.Reader := Toml.read?

/-- What a run leaves. -/
structure Outcome (σ : Type) where
  status : Nat
  /-- What is written to the standard output. -/
  output : Text := []
  /-- How many bytes of it arrive, if writing it fails. -/
  cut : Option Nat := none
  message : Option Text := none
  files : σ

namespace Outcome

/-- What arrives at the standard output. -/
def arrived {σ : Type} (o : Outcome σ) : ByteArray :=
  match o.cut with
  | none => FileTree.encode o.output
  | some n => (FileTree.encode o.output).extract 0 n

end Outcome

/-- Why rendering fails. -/
inductive RunError where
  | config (e : ConfigError)
  /-- The input cannot be read or is not UTF-8, or the result cannot be written. -/
  | io
  | render (e : Html.RenderError)
  deriving DecidableEq, Repr

namespace RunError

/-- The error in words. -/
def message : RunError → Text
  | config e => e.message
  | io => "io".toList
  | render e => e.message.toList

end RunError

/-- What a run leaves that failed. -/
def Outcome.failed {σ : Type} (e : RunError) (files : σ) : Outcome σ :=
  { status := 1, message := some ("Error: ".toList ++ e.message), files }

/-- The HTML of a source (`render_source`, `render_document`). -/
def html (c : Config) (source : Text) (read : Markup.Reader) : Except Html.RenderError Text :=
  let probe : Probe := if c.preserveEntities then .html5 else .never
  Html.renderToString probe c.tight (Markup.parse c.parse source read)

section

variable {σ ι : Type} [FileSystem σ ι] (files : σ)

/-- The text that is rendered: of the named file, or else of the standard input, if that can be read
(`read_input`). -/
def source? (stdin : Option ByteArray) : Option Text → Option Text
  | some path => (FileSystem.read? files path).bind FileTree.decode?
  | none => stdin.bind FileTree.decode?

/-- The HTML that a run is to write. -/
def result (a : RenderArguments) (stdin : Option ByteArray) (readers : Readers) : Except RunError Text := do
  let config ← (Config.load files a.config a.overrides readers.toml).mapError .config
  let some source := source? files stdin a.input | .error .io
  (html config source readers.markup).mapError .render

/-- What writing HTML leaves, to a file or else to the standard output (`write_output`). -/
def write (output : Option Text) (html : Text) (stdout : Stdout) : Outcome σ :=
  match output with
  | none =>
    match stdout (FileTree.encode html) with
    | none => { status := 0, output := html, files }
    | some n => { Outcome.failed .io files with output := html, cut := some n }
  | some path =>
    match FileSystem.write files path (FileTree.encode html) with
    | (files', true) => { status := 0, message := some ("Wrote ".toList ++ path), files := files' }
    | (files', false) => .failed .io files'

/-- Renders (`RenderArgs::execute`); a failure gives the status 1. -/
def render (a : RenderArguments) (stdin : Option ByteArray) (stdout : Stdout := fun _ => none)
    (readers : Readers := {}) : Outcome σ :=
  match result files a stdin readers with
  | .ok html => write files a.output html stdout
  | .error e => .failed e files

end

/-- Runs the program. Arguments that cannot be understood give the status 2. -/
def run {σ ι : Type} [FileSystem σ ι] (args : List Text) (stdin : Option ByteArray) (files : σ) : Outcome σ :=
  match Request.ofArguments? args with
  | none => { status := 2, files }
  | some .version => { status := 0, output := version, files }
  | some (.render a) => render files a stdin

end CommonMark.Command
