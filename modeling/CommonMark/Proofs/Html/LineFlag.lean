import CommonMark.Proofs.Html.Limited

/-!
# The flag of a writer

A writer never looks back at what it wrote. Its flag is a summary of it: over any sink, which may refuse any write and
take others after it, the flag is what it was at first until a text is taken, and from then on it says whether the last
text that was taken ends with a newline (`atLineStart_performAll`). To say so, a sink is made to keep account of its
writes (`Recorded`), which changes nothing in what a writer does (`run_forget`). The invariant is `Writer.Told`, kept by
each write, and so by each operation, whether it goes through or stops at one of its parts.
-/

namespace CommonMark.Html

/-! ## Operations -/

/-- What a writer is asked for. -/
inductive Operation where
  | str (t : Text)
  | char (c : Char)
  | newline
  | freshLine
  /-- Writes the parts of a formatted text one after another. -/
  | formatted (parts : List Text)

/-- The steps of an operation, of which the first that fails is the last. -/
def Operation.steps : Operation → List Step
  | str t => [.text t]
  | char c => [.text [c]]
  | newline => [.newline]
  | freshLine => [.freshLine]
  | formatted parts => parts.map .text

namespace Writer

variable {σ : Type} [Sink σ]

/-- Carries out an operation, and says whether it went through. -/
def perform (w : Writer σ) (op : Operation) : Writer σ × Bool := w.run op.steps

/-- Carries out operations, also after some that failed, and says whether all went through. -/
def performAll (w : Writer σ) : List Operation → Writer σ × Bool
  | [] => (w, true)
  | op :: ops =>
    let (w', ok) := w.perform op
    let (w'', ok') := w'.performAll ops
    (w'', ok && ok')

end Writer

/-! ## Account of writes -/

/-- A sink with the writes it was asked for, oldest first, and whether each was taken whole. -/
structure Recorded (σ : Type) where
  sink : σ
  writes : List (Text × Bool) := []

instance {σ : Type} [Sink σ] : Sink (Recorded σ) where
  put s t :=
    let (sink, ok) := Sink.put s.sink t
    (⟨sink, s.writes ++ [(t, ok)]⟩, ok)

/-- The texts that were taken, without empty ones, oldest first. -/
def Recorded.taken {σ : Type} (s : Recorded σ) : List Text :=
  (s.writes.filter fun w => w.2 && !w.1.isEmpty).map (·.1)

/-- What the texts that a sink took say about where it stands: the last of them does, and without any it stands where it
stood at first. -/
def lastLineFlag (first : Bool) (taken : List Text) : Bool :=
  match taken.getLast? with
  | none => first
  | some t => t.getLast? = some '\n'

namespace Writer

variable {σ : Type}

/-- The writer without the account. -/
def forget (w : Writer (Recorded σ)) : Writer σ := ⟨w.sink.sink, w.atLineStart⟩

/-- Whether the flag of a writer is what its writes say. -/
def Told (first : Bool) (w : Writer (Recorded σ)) : Prop := w.atLineStart = lastLineFlag first w.sink.taken

end Writer

/-- Whether the flag of a writer says whether a text ends with a newline; of an empty text it says nothing. -/
def Writer.Describes {σ : Type} (w : Writer σ) (t : Text) : Prop :=
  ∀ c, t.getLast? = some c → (w.atLineStart = true ↔ c = '\n')

/-- Whether a function shows the text in a sink: a write that is taken whole adds its text at the end. -/
def Sink.IsView {σ : Type} [Sink σ] (text : σ → Text) : Prop :=
  ∀ s t s', Sink.put s t = (s', true) → text s' = text s ++ t

theorem lastLineFlag_append (first flag : Bool) (ts : List Text) {t : Text} (h : t ≠ []) :
    lastLineFlag first (ts ++ [t]) = endsLine flag t := by
  obtain ⟨c, hc⟩ := Option.ne_none_iff_exists'.1 (mt List.getLast?_eq_none_iff.1 h)
  simp [lastLineFlag, endsLine, hc]

theorem describes_append {σ : Type} {w w' : Writer σ} {s t : Text} (h : w.Describes s)
    (hflag : w'.atLineStart = endsLine w.atLineStart t) : w'.Describes (s ++ t) := by
  intro c hc
  rw [List.getLast?_append] at hc
  rw [hflag, endsLine]
  cases ht : t.getLast? with
  | none =>
    rw [ht] at hc
    exact h c hc
  | some d =>
    rw [ht] at hc
    cases hc
    exact decide_eq_true_iff

/-- A buffer shows its text, whatever room it has. -/
theorem Buffer.isView_text : Sink.IsView Buffer.text := by
  intro b t
  induction t generalizing b with
  | nil =>
    rintro b' ⟨⟩
    simp
  | cons c t ih =>
    intro b' hput
    have hnext : ∀ b₁, b.push? c = some b₁ → b₁.text = b.text ++ [c] := by
      intro b₁ hpush
      unfold push? at hpush
      split at hpush
      · cases hpush
        simp [text]
      · split at hpush
        · cases hpush
          simp [text]
        · cases hpush
    change Buffer.put b (c :: t) = _ at hput
    rw [put] at hput
    cases hpush : b.push? c with
    | none => simp [hpush] at hput
    | some b₁ =>
      simp only [hpush] at hput
      rw [ih b₁ b' hput, hnext b₁ hpush, List.append_assoc, List.singleton_append]

theorem told_new {σ : Type} (sink : σ) (first : Bool) : Writer.Told first ⟨⟨sink, []⟩, first⟩ := rfl

section

variable {σ : Type} [Sink σ]

/-! ## Account changes nothing -/

theorem put_recorded (s : Recorded σ) (t : Text) :
    Sink.put s t = (⟨(Sink.put s.sink t).1, s.writes ++ [(t, (Sink.put s.sink t).2)]⟩, (Sink.put s.sink t).2) := rfl

theorem write_forget (w : Writer (Recorded σ)) (t : Text) :
    w.forget.write t = ((w.write t).1.forget, (w.write t).2) := by
  unfold Writer.write
  split
  · rfl
  · rw [put_recorded]
    rcases hinner : Sink.put w.sink.sink t with ⟨sink, ok⟩
    cases ok <;> simp [Writer.forget, hinner]

theorem run_forget (w : Writer (Recorded σ)) (ss : List Step) :
    w.forget.run ss = ((w.run ss).1.forget, (w.run ss).2) := by
  induction ss generalizing w with
  | nil => rfl
  | cons s ss ih =>
    have hstep : w.forget.step s = ((w.step s).1.forget, (w.step s).2) := write_forget w _
    rw [Writer.run, Writer.run, hstep]
    rcases w.step s with ⟨w', ok⟩
    cases ok with
    | true => exact ih w'
    | false => rfl

theorem performAll_forget (w : Writer (Recorded σ)) (ops : List Operation) :
    w.forget.performAll ops = ((w.performAll ops).1.forget, (w.performAll ops).2) := by
  induction ops generalizing w with
  | nil => rfl
  | cons op ops ih =>
    have hop : w.forget.perform op = ((w.perform op).1.forget, (w.perform op).2) := run_forget w _
    simp only [Writer.performAll, hop, ih]

/-! ## What writes say -/

theorem taken_put (s : Recorded σ) {t : Text} (h : t ≠ []) :
    (Sink.put s t).1.taken = if (Sink.put s t).2 then s.taken ++ [t] else s.taken := by
  rw [put_recorded]
  cases (Sink.put s.sink t).2 <;> simp [Recorded.taken, h]

namespace Writer.Told

variable {first : Bool} {w : Writer (Recorded σ)}

theorem write (h : w.Told first) (t : Text) : (w.write t).1.Told first := by
  unfold Writer.write
  split
  · exact h
  · rename_i hne
    have htaken := taken_put w.sink (t := t) (by simpa using hne)
    rcases hput : Sink.put w.sink t with ⟨sink, ok⟩
    rw [hput] at htaken
    cases ok with
    | true =>
      simp only [Writer.Told, htaken, ite_true]
      exact (lastLineFlag_append first w.atLineStart _ (by simpa using hne)).symm
    | false =>
      simp only [Writer.Told, htaken, Bool.false_eq_true, ite_false]
      exact h

theorem run (h : w.Told first) (ss : List Step) : (w.run ss).1.Told first := by
  induction ss generalizing w with
  | nil => exact h
  | cons s ss ih =>
    have hstep : (w.step s).1.Told first := h.write _
    rw [Writer.run]
    rcases hs : w.step s with ⟨w', ok⟩
    rw [hs] at hstep
    cases ok with
    | true => exact ih hstep
    | false => exact hstep

theorem performAll (h : w.Told first) (ops : List Operation) : (w.performAll ops).1.Told first := by
  induction ops generalizing w with
  | nil => exact h
  | cons op ops ih => exact ih (h.run op.steps)

end Writer.Told

/-! ## Runs that go through, and runs that do not -/

theorem write_of_false {w w' : Writer σ} {t : Text} (h : w.write t = (w', false)) : w'.atLineStart = w.atLineStart := by
  unfold Writer.write at h
  split at h
  · cases h
  · split at h
    · cases h
    · cases h
      rfl

/-- A run that stops had some steps go through, and leaves the flag as they left it. -/
theorem run_of_false {w w' : Writer σ} {ss : List Step} (h : w.run ss = (w', false)) :
    ∃ done failed rest w₁, ss = done ++ failed :: rest ∧ w.run done = (w₁, true) ∧ w₁.step failed = (w', false) ∧
      w'.atLineStart = w₁.atLineStart := by
  induction ss generalizing w with
  | nil => cases h
  | cons s ss ih =>
    rw [Writer.run] at h
    rcases hs : w.step s with ⟨w₁, ok⟩
    rw [hs] at h
    cases ok with
    | true =>
      obtain ⟨done, failed, rest, w₂, rfl, hdone, hfailed, hflag⟩ := ih h
      exact ⟨s :: done, failed, rest, w₂, rfl, by rw [Writer.run, hs]; exact hdone, hfailed, hflag⟩
    | false =>
      cases h
      exact ⟨[], s, ss, w, rfl, rfl, hs, write_of_false hs⟩

theorem write_of_true {text : σ → Text} (hview : Sink.IsView text) {w w' : Writer σ} {t : Text}
    (h : w.write t = (w', true)) :
    text w'.sink = text w.sink ++ t ∧ w'.atLineStart = endsLine w.atLineStart t := by
  unfold Writer.write at h
  split at h
  · rename_i hnil
    cases h
    rw [List.isEmpty_iff.1 hnil, List.append_nil]
    exact ⟨rfl, rfl⟩
  · split at h
    · rename_i sink hput
      cases h
      exact ⟨hview _ _ _ hput, rfl⟩
    · cases h

/-- A run that goes through writes the transcript of its steps. -/
theorem run_of_true {text : σ → Text} (hview : Sink.IsView text) {w w' : Writer σ} {ss : List Step}
    (h : w.run ss = (w', true)) :
    text w'.sink = text w.sink ++ transcript w.atLineStart ss ∧
      w'.atLineStart = endsLine w.atLineStart (transcript w.atLineStart ss) := by
  induction ss generalizing w with
  | nil =>
    cases h
    exact ⟨(List.append_nil _).symm, rfl⟩
  | cons s ss ih =>
    rw [Writer.run] at h
    rcases hs : w.step s with ⟨w₁, ok⟩
    rw [hs] at h
    cases ok with
    | true =>
      obtain ⟨htext, hflag⟩ := write_of_true hview hs
      obtain ⟨htext', hflag'⟩ := ih h
      rw [transcript, ← hflag, htext', htext, hflag', hflag, endsLine_append, List.append_assoc]
      exact ⟨rfl, rfl⟩
    | false => cases h

/-- Operations that all go through are one run of their steps. -/
theorem performAll_of_true {w w' : Writer σ} {ops : List Operation} (h : w.performAll ops = (w', true)) :
    w.run (ops.flatMap Operation.steps) = (w', true) := by
  induction ops generalizing w with
  | nil => exact h
  | cons op ops ih =>
    simp only [Writer.performAll, Prod.mk.injEq, Bool.and_eq_true] at h
    obtain ⟨hw, hop, hops⟩ := h
    have hsteps : (w.run op.steps).2 = true := hop
    rw [List.flatMap_cons, run_append, if_pos hsteps]
    exact ih (Prod.ext hw hops)

/-- What was taken is a view of a sink with account. -/
theorem isView_taken : Sink.IsView fun s : Recorded σ => s.taken.flatten := by
  intro s t s' hput
  by_cases ht : t = []
  · rw [put_recorded, Prod.mk.injEq] at hput
    simp [← hput.1, Recorded.taken, ht]
  · have htaken := taken_put s ht
    rw [hput] at htaken
    simp [htaken]

theorem describes_of_render {text : σ → Text} (hview : Sink.IsView text) {probe : Probe} {tight : Bool} {root : Block}
    {w w' : Writer σ} (h : render probe tight root w = (w', .ok ())) (hw : w.Describes (text w.sink)) :
    w'.Describes (text w'.sink) := by
  rw [render_eq_report, report] at h
  rcases hrun : w.run (blockSteps probe tight root) with ⟨w₁, ok⟩
  rw [hrun] at h
  cases ok with
  | true =>
    cases h
    obtain ⟨htext, hflag⟩ := run_of_true hview hrun
    rw [htext]
    exact describes_append hw hflag
  | false => cases h

end

/-- **The flag of a writer is what looking back would find**, over any sink. When a writer has carried out any operations
and gone on after those that failed, the flag is what it was at first as long as no text was taken, and then it says
whether the last text that was taken ends with a newline; account of this changes nothing. When all operations went
through, what was taken is all that they write, and the flag says how it ends. An operation that fails leaves the flag as
the parts before the one that failed left it. A flag that describes the text in a sink before a rendering that goes
through describes it afterwards. -/
theorem atLineStart_performAll {σ : Type} [Sink σ] :
    (∀ (sink : σ) (flag : Bool) (ops : List Operation), ∃ (w : Writer (Recorded σ)) (ok : Bool),
      Writer.performAll ⟨⟨sink, []⟩, flag⟩ ops = (w, ok) ∧ Writer.performAll ⟨sink, flag⟩ ops = (w.forget, ok) ∧
      (w.sink.taken = [] → w.atLineStart = flag) ∧
      (∀ t, w.sink.taken.getLast? = some t → (w.atLineStart = true ↔ t.getLast? = some '\n')) ∧
      (ok = true → w.sink.taken.flatten = transcript flag (ops.flatMap Operation.steps) ∧
        w.Describes w.sink.taken.flatten)) ∧
    (∀ (w w' : Writer σ) (op : Operation), w.perform op = (w', false) → ∃ done failed rest w₁,
      op.steps = done ++ failed :: rest ∧ w.run done = (w₁, true) ∧ w₁.step failed = (w', false) ∧
      w'.atLineStart = w₁.atLineStart) ∧
    ∀ (text : σ → Text), Sink.IsView text → ∀ probe tight root (w w' : Writer σ),
      render probe tight root w = (w', .ok ()) → w.Describes (text w.sink) → w'.Describes (text w'.sink) := by
  refine ⟨fun sink flag ops => ?_, fun w w' op h => run_of_false h,
    fun text hview probe tight root w w' h hw => describes_of_render hview h hw⟩
  have htold := (told_new sink flag).performAll ops
  rcases hrun : Writer.performAll (⟨⟨sink, []⟩, flag⟩ : Writer (Recorded σ)) ops with ⟨w, ok⟩
  rw [hrun, Writer.Told, lastLineFlag] at htold
  have hforget := performAll_forget (⟨⟨sink, []⟩, flag⟩ : Writer (Recorded σ)) ops
  rw [hrun] at hforget
  refine ⟨w, ok, rfl, hforget, fun hnil => ?_, fun t ht => ?_, fun hok => ?_⟩
  · rw [htold, hnil]
    rfl
  · rw [htold, ht]
    exact decide_eq_true_iff
  · rw [hok] at hrun
    obtain ⟨htaken, hflag⟩ := run_of_true isView_taken (performAll_of_true hrun)
    refine ⟨htaken, ?_⟩
    rw [htaken]
    exact describes_append (w := ⟨⟨sink, []⟩, flag⟩) (fun c hc => (nomatch hc)) hflag

/-- Three operations that fill a buffer of four bytes, a formatted text whose third part does not fit into three, and a
rendering in the middle of a line. -/
theorem atLineStart_performAll_limitedSample :
    (∃ w : Writer (Recorded Buffer),
      Writer.performAll ⟨⟨.ofText [] (some 4), []⟩, true⟩ [.freshLine, .str "é\n".toList, .char 'a'] = (w, true) ∧
      w.sink.taken.flatten = "é\na".toList ∧ w.Describes w.sink.taken.flatten) ∧
    (∃ (w w₁ : Writer Buffer) (done rest : List Step) (failed : Step),
      Writer.perform ⟨.ofText [] (some 3), false⟩ (.formatted [['a'], ['\n'], "bé".toList, ['c']]) = (w, false) ∧
      w₁.step failed = (w, false) ∧ w.atLineStart = w₁.atLineStart ∧ w.atLineStart = true ∧
      [['a'], ['\n'], "bé".toList, ['c']].map Step.text = done ++ failed :: rest) ∧
    ∃ w : Writer Buffer,
      render .html5 true (.ofKind .horizontalRuler) ⟨.ofText "x".toList none, false⟩ = (w, .ok ()) ∧
      w.sink.text = "x\n<hr />\n".toList ∧ w.Describes w.sink.text := by
  obtain ⟨hops, hfailed, hrender⟩ := atLineStart_performAll (σ := Buffer)
  refine ⟨?_, ?_, ?_⟩
  · obtain ⟨w, ok, hrun, -, -, -, hok⟩ := hops (.ofText [] (some 4)) true [.freshLine, .str "é\n".toList, .char 'a']
    have htrue : ok = true := (congrArg Prod.snd hrun).symm.trans (by decide)
    subst htrue
    obtain ⟨htaken, hdescribes⟩ := hok rfl
    exact ⟨w, hrun, htaken.trans (by decide), hdescribes⟩
  · obtain ⟨done, failed, rest, w₁, hparts, -, hstep, hflag⟩ :=
      hfailed ⟨.ofText [] (some 3), false⟩ _ (.formatted [['a'], ['\n'], "bé".toList, ['c']]) rfl
    exact ⟨_, w₁, done, rest, failed, rfl, hstep, hflag, rfl, hparts⟩
  · have hx : Writer.Describes (⟨.ofText "x".toList none, false⟩ : Writer Buffer) "x".toList := by
      intro c hc
      cases hc
      decide
    have hline := render_ofText .html5 true (.ofKind .horizontalRuler) "x".toList false
    exact ⟨_, hline, by decide, hrender Buffer.text Buffer.isView_text _ _ _ _ _ hline hx⟩

end CommonMark.Html
