import CommonMark.Html.Render

/-!
# What a rendering writes

The steps of a tree, carried out on a buffer without limit, add their transcript to what the buffer holds and
never fail (`render_of_no_limit`), so a property of all outputs is a property of `transcript`. Steps one
after another write one after another (`transcript_append`), and steps that all write a text write the same
wherever the sink stands (`transcript_of_isText`).
-/

namespace CommonMark.Html

/-! ## Transcripts -/

theorem endsLine_append (flag : Bool) (s t : Text) :
    endsLine flag (s ++ t) = endsLine (endsLine flag s) t := by
  unfold endsLine
  rw [List.getLast?_append]
  cases t.getLast? <;> rfl

theorem endsLine_cons (flag : Bool) (c : Char) (t : Text) : endsLine flag (c :: t) = endsLine (c = '\n') t := by
  rw [← List.singleton_append, endsLine_append]
  rfl

/-- A sink at the start of a line is still at one after nothing, and after what ends with a newline. -/
theorem endsLine_true_iff {t : Text} : endsLine true t = true ↔ t = [] ∨ t.getLast? = some '\n' := by
  unfold endsLine
  cases h : t.getLast? with
  | none => simp [List.getLast?_eq_none_iff.1 h]
  | some c =>
    have hne : t ≠ [] := by
      rintro rfl
      cases h
    simp [hne]

theorem transcript_append (flag : Bool) (ss ss' : List Step) :
    transcript flag (ss ++ ss') =
      transcript flag ss ++ transcript (endsLine flag (transcript flag ss)) ss' := by
  induction ss generalizing flag with
  | nil => rfl
  | cons s ss ih => simp only [List.cons_append, transcript, ih, endsLine_append, List.append_assoc]

theorem blocksSteps_append (probe : Probe) (tight : Bool) (bs cs : List Block) :
    blocksSteps probe tight (bs ++ cs) = blocksSteps probe tight bs ++ blocksSteps probe tight cs := by
  induction bs with
  | nil => rfl
  | cons b bs ih => rw [List.cons_append, blocksSteps, ih, blocksSteps, List.append_assoc]

/-- Whether a step writes the same text wherever the sink stands. -/
def Step.isText : Step → Bool
  | text _ => true
  | newline | freshLine => false

theorem transcript_of_isText {ss : List Step} (h : ss.all Step.isText = true) (flag : Bool) :
    transcript flag ss = ss.flatMap (Step.output true) := by
  induction ss generalizing flag with
  | nil => rfl
  | cons s ss ih =>
    simp only [List.all_cons, Bool.and_eq_true] at h
    match s, h with
    | .text t, h => simp only [transcript, Step.output, ih h.2, List.flatMap_cons]

/-- Texts one after another are written as they are. -/
theorem transcript_map_text (flag : Bool) (ts : List Text) : transcript flag (ts.map .text) = ts.flatten := by
  rw [transcript_of_isText (by simp [Step.isText]), List.flatMap_map]
  exact List.flatMap_id'

/-- What an item writes around a body: the body loses the white space at its end, and keeps one newline of it. -/
theorem transcript_itemSteps (flag : Bool) (body : Text) :
    transcript flag (itemSteps body) =
      Step.freshLine.output flag ++ "<li>".toList ++ body.trimEnd ++
        (if body.trimEnd ≠ [] ∧ '\n' ∈ body.drop body.trimEnd.length then ['\n'] else []) ++ "</li>\n".toList := by
  by_cases h : body.trimEnd ≠ [] ∧ '\n' ∈ body.drop body.trimEnd.length
  · simp only [itemSteps, if_pos h]
    simp [transcript, Step.output, markup]
  · simp only [itemSteps, if_neg h]
    simp [transcript, Step.output, markup]

/-! ## Buffers without limit -/

theorem Buffer.put_of_no_limit (r t : Text) :
    Buffer.put ⟨r, none⟩ t = (⟨t.reverse ++ r, none⟩, true) := by
  induction t generalizing r with
  | nil => rfl
  | cons c t ih => simp only [put, push?, ih, List.reverse_cons, List.append_assoc, List.singleton_append]

theorem step_of_no_limit (r : Text) (flag : Bool) (s : Step) :
    Writer.step (⟨⟨r, none⟩, flag⟩ : Writer Buffer) s =
      (⟨⟨(s.output flag).reverse ++ r, none⟩, endsLine flag (s.output flag)⟩, true) := by
  unfold Writer.step Writer.write
  by_cases h : (s.output flag).isEmpty = true
  · rw [List.isEmpty_iff.1 h]; rfl
  · simp only [h, Bool.false_eq_true, ite_false, Sink.put, Buffer.put_of_no_limit]

theorem run_of_no_limit (r : Text) (flag : Bool) (ss : List Step) :
    Writer.run (⟨⟨r, none⟩, flag⟩ : Writer Buffer) ss =
      (⟨⟨(transcript flag ss).reverse ++ r, none⟩, endsLine flag (transcript flag ss)⟩, true) := by
  induction ss generalizing r flag with
  | nil => rfl
  | cons s ss ih =>
    simp only [Writer.run, step_of_no_limit, ih, transcript, endsLine_append, List.reverse_append,
      List.append_assoc]

/-- **Rendering into a buffer without limit** succeeds and adds the transcript of the tree's steps. -/
theorem render_of_no_limit (probe : Probe) (tight : Bool) (root : Block) (r : Text) (flag : Bool) :
    render probe tight root (⟨⟨r, none⟩, flag⟩ : Writer Buffer) =
      (⟨⟨(transcript flag (blockSteps probe tight root)).reverse ++ r, none⟩,
        endsLine flag (transcript flag (blockSteps probe tight root))⟩, .ok ()) := by
  unfold render
  rw [run_of_no_limit]

/-- The same of a buffer that holds a text. -/
theorem render_ofText (probe : Probe) (tight : Bool) (root : Block) (held : Text) (flag : Bool) :
    render probe tight root ⟨Buffer.ofText held none, flag⟩ =
      (⟨Buffer.ofText (held ++ transcript flag (blockSteps probe tight root)) none,
        endsLine flag (transcript flag (blockSteps probe tight root))⟩, .ok ()) := by
  have h := render_of_no_limit probe tight root held.reverse flag
  rwa [← List.reverse_append] at h

end CommonMark.Html
