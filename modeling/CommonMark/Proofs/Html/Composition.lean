import CommonMark.Proofs.Html.Transcript

/-!
# Rendering one part after another

What a block writes depends on where the sink stands, but not by much: in the middle of a line it writes what it writes
at the start of one, or that with one newline in front (`transcript_separated`). Two runs of the same steps that differ
only in the flag of the sink go side by side until one of them writes something; from there on their flags are the same,
and so is what they write (`output_separated` for one step). Hence a document is the documents of its parts, one after
another, with at most one newline between two of them (`render_separated`).
-/

namespace CommonMark.Html

/-- What may stand between two parts: nothing, or one newline. -/
def IsSeparator (sep : Text) : Prop := sep = [] ∨ sep = ['\n']

/-- One step, in the middle of a line and at the start of one: either it writes nothing in both places, or it leaves the
sink alike in both. -/
theorem output_separated (s : Step) :
    s.output false = [] ∧ s.output true = [] ∨
      ∃ sep, IsSeparator sep ∧ s.output false = sep ++ s.output true ∧
        endsLine false (s.output false) = endsLine true (s.output true) := by
  cases s with
  | text t =>
    rcases List.eq_nil_or_concat t with rfl | ⟨u, c, rfl⟩
    · exact .inl ⟨rfl, rfl⟩
    · exact .inr ⟨[], .inl rfl, rfl, by simp [Step.output, endsLine]⟩
  | newline => exact .inr ⟨[], .inl rfl, rfl, rfl⟩
  | freshLine => exact .inr ⟨['\n'], .inr rfl, rfl, rfl⟩

/-- A run of steps, in the middle of a line and at the start of one. -/
theorem transcript_separated (ss : List Step) :
    ∃ sep, IsSeparator sep ∧ transcript false ss = sep ++ transcript true ss ∧
      (transcript false ss ≠ [] → endsLine false (transcript false ss) = endsLine true (transcript true ss)) := by
  induction ss with
  | nil => exact ⟨[], .inl rfl, rfl, fun h => absurd rfl h⟩
  | cons s ss ih =>
    simp only [transcript]
    rcases output_separated s with ⟨hfalse, htrue⟩ | ⟨sep, hsep, houtput, hflag⟩
    · -- nothing was written, and the flags still differ
      rw [hfalse, htrue]
      exact ih
    · -- from here on the two runs are one
      refine ⟨sep, hsep, by rw [hflag, houtput, List.append_assoc], fun _ => ?_⟩
      rw [endsLine_append, endsLine_append, hflag]

/-- What steps write wherever the sink stands is what they write at the start of a line, after a separator. There is
none where the sink does stand at the start of a line. -/
theorem transcript_eq_separator (flag : Bool) (ss : List Step) :
    ∃ sep, IsSeparator sep ∧ (flag = true → sep = []) ∧ transcript flag ss = sep ++ transcript true ss := by
  cases flag with
  | true => exact ⟨[], .inl rfl, fun _ => rfl, rfl⟩
  | false =>
    obtain ⟨sep, hsep, htranscript, -⟩ := transcript_separated ss
    exact ⟨sep, hsep, fun h => (nomatch h), htranscript⟩

/-- A document of two lists of blocks, one after the other. -/
theorem renderToText_append (probe : Probe) (tight : Bool) (xs ys : List Block) :
    ∃ flag, renderToText probe tight (.document (xs ++ ys)) =
        renderToText probe tight (.document xs) ++ transcript flag (blockSteps probe tight (.document ys)) ∧
      flag = endsLine true (renderToText probe tight (.document xs)) := by
  refine ⟨_, ?_, rfl⟩
  simp only [renderToText, Block.document, blockSteps, blocksSteps_append, transcript_append]

/-- **Rendering is compositional up to one newline.** A block rendered into a buffer that does not stand at the start of
a line writes what it writes into one that does, or that with one newline in front, and the two buffers are left alike
unless nothing was written. A document of two lists of blocks is the document of the first, a separator and the document
of the second; the separator is empty when the first document is, or ends with a newline. -/
theorem render_separated (probe : Probe) (tight : Bool) :
    (∀ (root : Block) (held held' : Text), ∃ (t sep : Text) (flag flag' : Bool),
      render probe tight root ⟨Buffer.ofText held none, true⟩ = (⟨Buffer.ofText (held ++ t) none, flag⟩, .ok ()) ∧
      render probe tight root ⟨Buffer.ofText held' none, false⟩ =
        (⟨Buffer.ofText (held' ++ (sep ++ t)) none, flag'⟩, .ok ()) ∧
      IsSeparator sep ∧ (sep ++ t ≠ [] → flag' = flag)) ∧
    ∀ xs ys : List Block, ∃ sep,
      renderToText probe tight (.document (xs ++ ys)) =
        renderToText probe tight (.document xs) ++ sep ++ renderToText probe tight (.document ys) ∧
      IsSeparator sep ∧
      (renderToText probe tight (.document xs) = [] ∨
        (renderToText probe tight (.document xs)).getLast? = some '\n' → sep = []) := by
  constructor
  · intro root held held'
    obtain ⟨sep, hsep, htranscript, hflags⟩ := transcript_separated (blockSteps probe tight root)
    have hstart := render_ofText probe tight root held true
    have hmiddle := render_ofText probe tight root held' false
    rw [htranscript] at hmiddle hflags
    exact ⟨_, sep, _, _, hstart, hmiddle, hsep, hflags⟩
  · intro xs ys
    obtain ⟨flag, happend, hflag⟩ := renderToText_append probe tight xs ys
    obtain ⟨sep, hsep, hempty, htranscript⟩ := transcript_eq_separator flag (blockSteps probe tight (.document ys))
    refine ⟨sep, ?_, hsep, fun hend => hempty ?_⟩
    · rw [happend, htranscript, List.append_assoc]
      rfl
    · rw [hflag]
      exact endsLine_true_iff.2 hend

end CommonMark.Html
