import CommonMark.Proofs.Html.Composition
import CommonMark.Proofs.Html.Limited
import CommonMark.Proofs.Html.Spelling
import Mathlib.Data.List.DropRight

/-!
# What trimming an item drops

The body of an item loses the white space at its end, all that Unicode calls so: not only the blanks and line ends that
ASCII has, but also a no-break space that the text of the item ends with (`not_nonAscii_item_noBreakSpace`). Of what lies
beyond ASCII an item loses this and nothing else. So its rendering has the same characters beyond ASCII as its children,
rendered one after another, unless the white space that these end with has one (`nonAscii_item`).
-/

namespace CommonMark

namespace Text

/-- The characters beyond ASCII, in order. -/
def nonAscii (t : Text) : Text := t.filter fun c => 128 ≤ c.toNat

theorem nonAscii_append (s t : Text) : nonAscii (s ++ t) = nonAscii s ++ nonAscii t := List.filter_append ..

theorem nonAscii_eq_nil_iff {t : Text} : nonAscii t = [] ↔ ∀ c ∈ t, c.toNat < 128 := by
  simp [nonAscii, List.filter_eq_nil_iff]

theorem trimEnd_eq_rdropWhile (t : Text) : t.trimEnd = t.rdropWhile isBlank := by
  induction t using List.reverseRecOn with
  | nil => rfl
  | append_singleton t c ih =>
    have hlast : trimEnd [c] = if isBlank c then [] else [c] := rfl
    rw [trimEnd_append, hlast, List.rdropWhile_concat]
    cases isBlank c <;> simp [ih]

/-- The characters beyond ASCII in a text are those that trimming keeps, and those in the white space at its end. -/
theorem nonAscii_eq (t : Text) : t.nonAscii = t.trimEnd.nonAscii ++ nonAscii (t.rtakeWhile isBlank) := by
  rw [← nonAscii_append, trimEnd_eq_rdropWhile, List.rdropWhile_append_rtakeWhile]

end Text

namespace Html

/-! ## Newlines do not count -/

theorem nonAscii_separator {sep : Text} (h : IsSeparator sep) : sep.nonAscii = [] := by rcases h with rfl | rfl <;> decide

theorem nonAscii_trimEnd_separator {sep : Text} (h : IsSeparator sep) (t : Text) :
    (sep ++ t).trimEnd.nonAscii = t.trimEnd.nonAscii := by
  have hsep : sep.trimEnd = [] := by rcases h with rfl | rfl <;> decide
  rw [Text.trimEnd_append]
  split
  · rename_i ht
    rw [hsep, ht]
  · rw [Text.nonAscii_append, nonAscii_separator h, List.nil_append]

/-- Wherever the sink stands, the same is left of what steps write when it is trimmed. -/
theorem nonAscii_trimEnd_transcript (flag flag' : Bool) (ss : List Step) :
    (transcript flag ss).trimEnd.nonAscii = (transcript flag' ss).trimEnd.nonAscii := by
  obtain ⟨sep, hsep, -, htranscript⟩ := transcript_eq_separator flag ss
  obtain ⟨sep', hsep', -, htranscript'⟩ := transcript_eq_separator flag' ss
  rw [htranscript, htranscript', nonAscii_trimEnd_separator hsep, nonAscii_trimEnd_separator hsep']

/-- The tags of an item are ASCII. -/
theorem nonAscii_itemSteps (flag : Bool) (body : Text) :
    (transcript flag (itemSteps body)).nonAscii = body.trimEnd.nonAscii := by
  have hfresh : (Step.freshLine.output flag).nonAscii = [] := by cases flag <;> decide
  have hopen : Text.nonAscii "<li>".toList = [] := by decide
  have hclose : Text.nonAscii "</li>\n".toList = [] := by decide
  have hnewline : ∀ (p : Prop) [Decidable p], Text.nonAscii (if p then ['\n'] else []) = [] := by
    intro p _
    split <;> decide
  simp only [transcript_itemSteps, Text.nonAscii_append, hfresh, hopen, hclose, hnewline, List.nil_append,
    List.append_nil]

/-! ## Blocks one after another -/

theorem rootsSteps_map (probe : Probe) (tight : Bool) (bs : List Block) :
    rootsSteps probe (bs.map (·, tight)) = blocksSteps probe tight bs := by
  induction bs with
  | nil => rfl
  | cons b bs ih => rw [blocksSteps, ← ih]; rfl

theorem renderAll_ofText (probe : Probe) (held : Text) (flag : Bool) (roots : List (Block × Bool)) :
    renderAll probe ⟨Buffer.ofText held none, flag⟩ roots =
      (⟨Buffer.ofText (held ++ transcript flag (rootsSteps probe roots)) none,
        endsLine flag (transcript flag (rootsSteps probe roots))⟩, .ok ()) := by
  have h := (renderAll_eq_report probe ⟨Buffer.ofText held none, flag⟩ roots).trans
    (congrArg report (run_of_no_limit held.reverse flag (rootsSteps probe roots)))
  rwa [← List.reverse_append] at h

/-- **An item keeps what lies beyond ASCII, but for white space at its end.** Its rendering and that of its children one
after another, each into a buffer that holds any text, have the same characters beyond ASCII, except that the item is
without those in the white space that the children end with. So the two have the same just when there are none. -/
theorem nonAscii_item (probe : Probe) (tight : Bool) (literal : Option Literal) (children : List Block)
    (inlines : List Inline) (held held' : Text) (flag flag' : Bool) :
    ∃ (item body : Text) (w w' : Writer Buffer),
      render probe tight ⟨.listItem, literal, children, inlines⟩ ⟨Buffer.ofText held none, flag⟩ = (w, .ok ()) ∧
      w.sink.text = held ++ item ∧
      renderAll probe ⟨Buffer.ofText held' none, flag'⟩ (children.map (·, tight)) = (w', .ok ()) ∧
      w'.sink.text = held' ++ body ∧
      body.nonAscii = item.nonAscii ++ Text.nonAscii (body.rtakeWhile isBlank) ∧
      (item.nonAscii = body.nonAscii ↔ ∀ c ∈ body.rtakeWhile isBlank, c.toNat < 128) := by
  have htext : ∀ t : Text, (Buffer.ofText t none).text = t := fun t => List.reverse_reverse t
  have hitem : (transcript flag (blockSteps probe tight ⟨.listItem, literal, children, inlines⟩)).nonAscii =
      (transcript flag' (rootsSteps probe (children.map (·, tight)))).trimEnd.nonAscii := by
    rw [blockSteps, nonAscii_itemSteps, rootsSteps_map]
    exact nonAscii_trimEnd_transcript false flag' _
  have hbody := Text.nonAscii_eq (transcript flag' (rootsSteps probe (children.map (·, tight))))
  rw [← hitem] at hbody
  refine ⟨_, _, _, _, render_ofText .., htext _, renderAll_ofText .., htext _, hbody, ?_⟩
  rw [hbody, List.self_eq_append_right, Text.nonAscii_eq_nil_iff]

/-- A tight item with a text that ends in a no-break space, which the text alone keeps. -/
theorem not_nonAscii_item_noBreakSpace :
    let paragraph : Block := { kind := .paragraph, inlines := [.text (.plain "x\u00a0".toList)] }
    render .html5 true { kind := .listItem, children := [paragraph] } ⟨Buffer.ofText [] none, true⟩ =
        (⟨Buffer.ofText "<li>x</li>\n".toList none, true⟩, .ok ()) ∧
      renderAll .html5 ⟨Buffer.ofText [] none, true⟩ [(paragraph, true)] =
        (⟨Buffer.ofText "x\u00a0".toList none, false⟩, .ok ()) ∧
      Text.nonAscii "<li>x</li>\n".toList ≠ Text.nonAscii "x\u00a0".toList := by
  intro paragraph
  have hparagraph : ∀ flag, transcript flag (blocksSteps .html5 true [paragraph]) = "x\u00a0".toList := by
    intro flag
    have hsteps : blocksSteps .html5 true [paragraph] = textSteps .html5 (.plain "x\u00a0".toList) := by
      simp [paragraph, blocksSteps, blockSteps, inlinesSteps, inlineSteps]
    rw [hsteps, textSteps, transcript_map_text]
    exact (escapeLiteral_never _ _).trans (by decide)
  have hitem : transcript true (blockSteps .html5 true { kind := .listItem, children := [paragraph] }) =
      "<li>x</li>\n".toList := by
    rw [blockSteps, hparagraph]
    decide
  refine ⟨?_, ?_, by decide⟩
  · rw [render_ofText, hitem]
    rfl
  · have h := renderAll_ofText .html5 [] true ([paragraph].map (·, true))
    rw [rootsSteps_map, hparagraph] at h
    exact h

end Html

end CommonMark
