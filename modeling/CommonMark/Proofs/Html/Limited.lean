import CommonMark.Proofs.Html.Transcript

/-!
# Writing to a sink with a limit

A sink that holds a limited number of bytes takes the characters that fit and refuses the first that does not.
However a text is cut into writes, the sink ends with the longest beginning of the whole that fits
(`run_of_limit`), because nothing is written after a write that failed. So a rendering into such a sink either
goes through or stops with an error after just that beginning (`received_of_limit`).
-/

namespace CommonMark

/-! ## Beginnings that fit -/

namespace Text

/-- The characters of a text up to the first that does not fit into a number of bytes. -/
def fitting : Nat → Text → Text
  | _, [] => []
  | n, c :: t => if c.utf8Size ≤ n then c :: fitting (n - c.utf8Size) t else []

theorem fitting_isPrefix (n : Nat) (t : Text) : fitting n t <+: t := by
  induction t generalizing n with
  | nil => exact List.prefix_rfl
  | cons c t ih =>
    rw [fitting]
    split
    · exact List.cons_prefix_cons.2 ⟨rfl, ih _⟩
    · exact List.nil_prefix

theorem bytes_fitting_le (n : Nat) (t : Text) : bytes (fitting n t) ≤ n := by
  induction t generalizing n with
  | nil => simp [fitting]
  | cons c t ih =>
    rw [fitting]
    split
    · have hrest := ih (n - c.utf8Size)
      rw [bytes_cons]
      omega
    · simp

/-- No beginning that fits is longer. -/
theorem isPrefix_fitting {n : Nat} {q t : Text} (hq : q <+: t) (hn : bytes q ≤ n) : q <+: fitting n t := by
  induction t generalizing n q with
  | nil => exact hq
  | cons c t ih =>
    cases q with
    | nil => exact List.nil_prefix
    | cons d q =>
      obtain ⟨rfl, hrest⟩ := List.cons_prefix_cons.1 hq
      rw [bytes_cons] at hn
      rw [fitting, if_pos (by omega)]
      exact List.cons_prefix_cons.2 ⟨rfl, ih hrest (by omega)⟩

theorem fitting_of_le {n : Nat} {t : Text} (h : bytes t ≤ n) : fitting n t = t :=
  (fitting_isPrefix n t).eq_of_length_le (isPrefix_fitting List.prefix_rfl h).length_le

/-- A text after another is cut only when that one fits whole. -/
theorem fitting_append (n : Nat) (s t : Text) :
    fitting n (s ++ t) = if bytes s ≤ n then s ++ fitting (n - bytes s) t else fitting n s := by
  induction s generalizing n with
  | nil => simp
  | cons c s ih =>
    rw [List.cons_append, fitting, fitting, bytes_cons]
    by_cases hc : c.utf8Size ≤ n
    · rw [if_pos hc, if_pos hc, ih]
      by_cases hs : bytes s ≤ n - c.utf8Size
      · rw [if_pos hs, if_pos (by omega), List.cons_append, Nat.sub_sub]
      · rw [if_neg hs, if_neg (by omega)]
    · rw [if_neg hc, if_neg hc, if_neg (by omega)]

end Text

namespace Html

/-! ## Texts one after another -/

namespace Sink

/-- Writes texts to a sink one after another, up to the first that is not taken whole. -/
def putAll {σ : Type} [Sink σ] (sink : σ) : List Text → σ × Bool
  | [] => (sink, true)
  | t :: ts =>
    match put sink t with
    | (sink', true) => putAll sink' ts
    | (sink', false) => (sink', false)

end Sink

/-- A buffer after the beginning of a text that fits into the room it has left. -/
def Buffer.limited (r : Text) (n : Nat) (t : Text) : Buffer :=
  ⟨(t.fitting n).reverse ++ r, some (n - (t.fitting n).bytes)⟩

theorem Buffer.limited_nil (r : Text) (n : Nat) : limited r n [] = ⟨r, some n⟩ := rfl

theorem Buffer.put_of_limit (r : Text) (n : Nat) (t : Text) :
    Buffer.put ⟨r, some n⟩ t = (limited r n t, decide (t.bytes ≤ n)) := by
  induction t generalizing r n with
  | nil => simp [put, limited_nil]
  | cons c t ih =>
    by_cases hc : c.utf8Size ≤ n
    · have hfits : Text.bytes t ≤ n - c.utf8Size ↔ c.utf8Size + Text.bytes t ≤ n := by omega
      simp only [put, push?, hc, ite_true, ih, limited, Text.fitting, List.reverse_cons, List.append_assoc,
        List.singleton_append, Text.bytes_cons, Nat.sub_sub, hfits]
      rfl
    · have hfits : ¬ c.utf8Size + Text.bytes t ≤ n := by omega
      simp [put, push?, hc, hfits, limited, Text.fitting]

/-- What is left of a buffer that took one text takes the next as one buffer takes both. -/
theorem Buffer.limited_append {n : Nat} {s : Text} (r t : Text) (hs : s.bytes ≤ n) :
    limited (s.reverse ++ r) (n - s.bytes) t = limited r n (s ++ t) := by
  simp only [limited, Text.fitting_append, hs, ite_true, List.reverse_append, List.append_assoc, Text.bytes_append,
    Nat.sub_sub]

theorem Buffer.limited_of_le {n : Nat} {s : Text} (r : Text) (hs : s.bytes ≤ n) :
    limited r n s = ⟨s.reverse ++ r, some (n - s.bytes)⟩ := by
  rw [limited, Text.fitting_of_le hs]

theorem Buffer.limited_append_of_lt {n : Nat} {s : Text} (r t : Text) (hs : ¬ s.bytes ≤ n) :
    limited r n (s ++ t) = limited r n s := by
  simp only [limited, Text.fitting_append, hs, ite_false]

theorem putAll_of_limit (r : Text) (n : Nat) (ts : List Text) :
    Sink.putAll (⟨r, some n⟩ : Buffer) ts =
      (Buffer.limited r n ts.flatten, decide (Text.bytes ts.flatten ≤ n)) := by
  induction ts generalizing r n with
  | nil => simp [Sink.putAll, Buffer.limited_nil]
  | cons t ts ih =>
    have hput : Sink.put (⟨r, some n⟩ : Buffer) t = _ := Buffer.put_of_limit r n t
    rw [Sink.putAll, hput, List.flatten_cons, Text.bytes_append]
    by_cases ht : t.bytes ≤ n
    · have hfits : Text.bytes ts.flatten ≤ n - t.bytes ↔ t.bytes + Text.bytes ts.flatten ≤ n := by omega
      simp only [ht, decide_true, Buffer.limited_of_le r ht, ih, Buffer.limited_append r _ ht, hfits]
    · have hfits : ¬ t.bytes + Text.bytes ts.flatten ≤ n := by omega
      simp only [ht, hfits, decide_false, Buffer.limited_append_of_lt r _ ht]

theorem putAll_of_no_limit (r : Text) (ts : List Text) :
    Sink.putAll (⟨r, none⟩ : Buffer) ts = (⟨ts.flatten.reverse ++ r, none⟩, true) := by
  induction ts generalizing r with
  | nil => rfl
  | cons t ts ih =>
    have hput : Sink.put (⟨r, none⟩ : Buffer) t = _ := Buffer.put_of_no_limit r t
    rw [Sink.putAll, hput]
    simp only [ih, List.flatten_cons, List.reverse_append, List.append_assoc]

/-! ## Steps -/

theorem step_of_limit (r : Text) (n : Nat) (flag : Bool) (s : Step) :
    ∃ flag', Writer.step (⟨⟨r, some n⟩, flag⟩ : Writer Buffer) s =
        (⟨Buffer.limited r n (s.output flag), flag'⟩, decide ((s.output flag).bytes ≤ n)) ∧
      ((s.output flag).bytes ≤ n → flag' = endsLine flag (s.output flag)) := by
  unfold Writer.step Writer.write
  by_cases h : (s.output flag).isEmpty = true
  · refine ⟨flag, ?_, ?_⟩
    · rw [List.isEmpty_iff.1 h]
      simp [Buffer.limited_nil]
    · intro _
      rw [List.isEmpty_iff.1 h]
      rfl
  · simp only [h, Bool.false_eq_true, ite_false, Sink.put, Buffer.put_of_limit]
    by_cases hn : (s.output flag).bytes ≤ n
    · exact ⟨_, by simp only [hn, decide_true], fun _ => rfl⟩
    · exact ⟨flag, by simp only [hn, decide_false], fun h' => absurd h' hn⟩

/-- **Steps on a sink with a limit** write the beginning of their transcript that fits, and fail when that is not
all of it. -/
theorem run_of_limit (r : Text) (n : Nat) (flag : Bool) (ss : List Step) :
    ∃ flag', Writer.run (⟨⟨r, some n⟩, flag⟩ : Writer Buffer) ss =
      (⟨Buffer.limited r n (transcript flag ss), flag'⟩, decide ((transcript flag ss).bytes ≤ n)) := by
  induction ss generalizing r n flag with
  | nil => exact ⟨flag, by simp [Writer.run, transcript, Buffer.limited_nil]⟩
  | cons s ss ih =>
    obtain ⟨flag₁, hstep, hflag⟩ := step_of_limit r n flag s
    simp only [Writer.run, transcript, hstep, Text.bytes_append]
    by_cases hs : (s.output flag).bytes ≤ n
    · obtain ⟨flag₂, hrun⟩ := ih ((s.output flag).reverse ++ r) (n - (s.output flag).bytes)
        (endsLine flag (s.output flag))
      have hfits : ∀ m, m ≤ n - (s.output flag).bytes ↔ (s.output flag).bytes + m ≤ n := by omega
      refine ⟨flag₂, ?_⟩
      simp only [hs, decide_true, hflag hs, Buffer.limited_of_le r hs, hrun, Buffer.limited_append r _ hs, hfits]
    · have hfits : ∀ m, ¬ (s.output flag).bytes + m ≤ n := by omega
      refine ⟨flag₁, ?_⟩
      simp only [hs, hfits, decide_false, Buffer.limited_append_of_lt r _ hs]

/-! ## Several trees -/

/-- Renders trees into a writer one after another, each with its tightness, up to the first that fails. -/
def renderAll {σ : Type} [Sink σ] (probe : Probe) (w : Writer σ) :
    List (Block × Bool) → Writer σ × Except RenderError Unit
  | [] => (w, .ok ())
  | (root, tight) :: roots =>
    match render probe tight root w with
    | (w', .ok ()) => renderAll probe w' roots
    | (w', .error e) => (w', .error e)

/-- The steps of trees, one tree after another. -/
def rootsSteps (probe : Probe) (roots : List (Block × Bool)) : List Step :=
  roots.flatMap fun r => blockSteps probe r.2 r.1

/-- What a run ends with, as a rendering reports it. -/
def report {σ : Type} (r : Writer σ × Bool) : Writer σ × Except RenderError Unit :=
  (r.1, if r.2 then .ok () else .error .write)

theorem run_append {σ : Type} [Sink σ] (w : Writer σ) (ss ss' : List Step) :
    w.run (ss ++ ss') = if (w.run ss).2 then (w.run ss).1.run ss' else w.run ss := by
  induction ss generalizing w with
  | nil => rfl
  | cons s ss ih =>
    rw [List.cons_append, Writer.run, Writer.run]
    rcases w.step s with ⟨w', ok⟩
    cases ok with
    | true => exact ih w'
    | false => rfl

theorem render_eq_report {σ : Type} [Sink σ] (probe : Probe) (tight : Bool) (root : Block) (w : Writer σ) :
    render probe tight root w = report (w.run (blockSteps probe tight root)) := by
  unfold render report
  rcases w.run (blockSteps probe tight root) with ⟨w', ok⟩
  cases ok <;> rfl

/-- Rendering several trees is one run of all their steps. -/
theorem renderAll_eq_report {σ : Type} [Sink σ] (probe : Probe) (w : Writer σ) (roots : List (Block × Bool)) :
    renderAll probe w roots = report (w.run (rootsSteps probe roots)) := by
  induction roots generalizing w with
  | nil => rfl
  | cons root roots ih =>
    obtain ⟨root, tight⟩ := root
    rw [renderAll, render_eq_report, rootsSteps, List.flatMap_cons, run_append]
    rcases w.run (blockSteps probe tight root) with ⟨w', ok⟩
    cases ok with
    | true => exact ih w'
    | false => rfl

/-! ## What the sink has received -/

/-- The longest beginning of a text that a sink with a limit takes after what it holds; nothing, when it is over
the limit already. -/
structure IsLongestFit (limit : Nat) (held full part : Text) : Prop where
  isPrefix : part <+: full
  fits : part = [] ∨ held.bytes + part.bytes ≤ limit
  longest : ∀ q : Text, q <+: full → held.bytes + q.bytes ≤ limit → q <+: part

/-- What a sink with a limit that held a text has received of another: all of it when there is nothing to take or
all fits, else the longest beginning that fits. -/
def Received (limit : Nat) (held full : Text) (sink : Buffer) (complete : Bool) : Prop :=
  ∃ part, sink.text = held ++ part ∧
    if full = [] ∨ held.bytes + full.bytes ≤ limit then complete = true ∧ part = full
    else complete = false ∧ IsLongestFit limit held full part

theorem text_limited (held : Text) (n : Nat) (t : Text) :
    (Buffer.limited held.reverse n t).text = held ++ t.fitting n := by
  rw [Buffer.text, Buffer.limited, List.reverse_append, List.reverse_reverse, List.reverse_reverse]

theorem received_limited (limit : Nat) (held full : Text) :
    Received limit held full (Buffer.limited held.reverse (limit - held.bytes) full)
      (decide (full.bytes ≤ limit - held.bytes)) := by
  refine ⟨full.fitting (limit - held.bytes), text_limited .., ?_⟩
  by_cases h : full.bytes ≤ limit - held.bytes
  · have hroom : full = [] ∨ held.bytes + full.bytes ≤ limit := by
      by_cases hnil : full.bytes = 0
      · exact .inl (Text.bytes_eq_zero.1 hnil)
      · exact .inr (by omega)
    rw [if_pos hroom]
    exact ⟨decide_eq_true h, Text.fitting_of_le h⟩
  · have hroom : ¬ (full = [] ∨ held.bytes + full.bytes ≤ limit) := by
      rintro (rfl | hfits)
      · simp at h
      · omega
    rw [if_neg hroom]
    refine ⟨decide_eq_false h, Text.fitting_isPrefix .., ?_, ?_⟩
    · have hle := Text.bytes_fitting_le (limit - held.bytes) full
      by_cases hnil : Text.bytes (full.fitting (limit - held.bytes)) = 0
      · exact .inl (Text.bytes_eq_zero.1 hnil)
      · exact .inr (by omega)
    · intro q hq hfits
      exact Text.isPrefix_fitting hq (by omega)

/-- **A sink with a limit receives a beginning of the full output.** Whatever trees are rendered one after another
into a writer without limit, which goes through and appends `full`, the same rendering into a writer with a limit
appends all of it, or stops with an error after the longest beginning that fits. The same holds of a literal, a plain
text among them, that is escaped into a writer, or into the sink itself. -/
theorem received_of_limit (probe : Probe) (held : Text) (flag : Bool) (limit : Nat) :
    (∀ roots : List (Block × Bool), ∃ (full : Text) (w w' : Writer Buffer) (complete : Bool),
      renderAll probe ⟨.ofText held none, flag⟩ roots = (w, .ok ()) ∧ w.sink.text = held ++ full ∧
      renderAll probe ⟨.ofText held (some limit), flag⟩ roots =
        (w', if complete then .ok () else .error .write) ∧
      Received limit held full w'.sink complete) ∧
    (∀ (preserve : Bool) (l : Literal), ∃ (w w' : Writer Buffer) (complete : Bool),
      Writer.writeAll ⟨.ofText held none, flag⟩ (literalPieces preserve probe l) = (w, true) ∧
      w.sink.text = held ++ escapeLiteral preserve probe l ∧
      Writer.writeAll ⟨.ofText held (some limit), flag⟩ (literalPieces preserve probe l) = (w', complete) ∧
      Received limit held (escapeLiteral preserve probe l) w'.sink complete) ∧
    ∀ (preserve : Bool) (l : Literal), ∃ (b b' : Buffer) (complete : Bool),
      Sink.putAll (Buffer.ofText held none) (literalPieces preserve probe l) = (b, true) ∧
      b.text = held ++ escapeLiteral preserve probe l ∧
      Sink.putAll (Buffer.ofText held (some limit)) (literalPieces preserve probe l) = (b', complete) ∧
      Received limit held (escapeLiteral preserve probe l) b' complete := by
  have htext : ∀ t : Text, Buffer.text ⟨t.reverse ++ held.reverse, none⟩ = held ++ t := by
    intro t
    rw [Buffer.text, List.reverse_append, List.reverse_reverse, List.reverse_reverse]
  refine ⟨fun roots => ?_, fun preserve l => ?_, fun preserve l => ?_⟩
  · obtain ⟨flag', hrun⟩ := run_of_limit held.reverse (limit - held.bytes) flag (rootsSteps probe roots)
    have hall := run_of_no_limit held.reverse flag (rootsSteps probe roots)
    have hreceived := received_limited limit held (transcript flag (rootsSteps probe roots))
    exact ⟨_, _, _, _, (renderAll_eq_report ..).trans (congrArg report hall), htext _,
      (renderAll_eq_report ..).trans (congrArg report hrun), hreceived⟩
  · have hpieces : transcript flag ((literalPieces preserve probe l).map .text) = escapeLiteral preserve probe l := by
      rw [transcript_of_isText (by simp [Step.isText]), List.flatMap_map]
      exact List.flatMap_id'
    obtain ⟨flag', hrun⟩ :=
      run_of_limit held.reverse (limit - held.bytes) flag ((literalPieces preserve probe l).map .text)
    have hall := run_of_no_limit held.reverse flag ((literalPieces preserve probe l).map .text)
    rw [hpieces] at hrun hall
    exact ⟨_, _, _, hall, htext _, hrun, received_limited limit held _⟩
  · exact ⟨_, _, _, putAll_of_no_limit held.reverse _, htext _, putAll_of_limit held.reverse _ _,
      received_limited limit held _⟩

end Html

end CommonMark
