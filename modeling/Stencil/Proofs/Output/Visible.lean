import Stencil.Proofs.Output.Column

/-! The visible characters of the output. Every way of writing adds those of what is written, at the
end; line breaks, trimming and alignment change only blanks. -/

namespace Stencil

/-! ## Visible characters -/

/-- The text without its white space. -/
def Text.visible (t : Text) : Text := t.filter (!Stencil.isBlank ·)

/-- The text of a value, apart from the breaks between its lines. -/
def Value.content : Value → Text
  | .lines ls => ls.flatten
  | v => v.display

namespace Text

@[simp] theorem visible_nil : visible [] = [] := rfl

@[simp] theorem visible_append (t u : Text) : visible (t ++ u) = t.visible ++ u.visible :=
  List.filter_append ..

theorem visible_of_allBlank {t : Text} (h : t.allBlank = true) : t.visible = [] := by
  rw [visible, List.filter_eq_nil_iff]
  intro c hc
  simp [allBlank_iff.mp h c hc]

theorem visible_trimEnd (t : Text) : t.trimEnd.visible = t.visible := by
  obtain ⟨gap, hgap, ht⟩ := exists_blank_trimEnd t
  calc
    t.trimEnd.visible = t.trimEnd.visible ++ gap.visible := by
      rw [visible_of_allBlank hgap, List.append_nil]
    _ = visible (t.trimEnd ++ gap) := (visible_append _ _).symm
    _ = t.visible := by rw [← ht]

theorem visible_flatten_congr {ls : List Text} {f : Text → Text}
    (h : ∀ l, visible (f l) = visible l) : visible (ls.map f).flatten = visible ls.flatten := by
  induction ls with
  | nil => rfl
  | cons l ls ih => simp [h, ih]

/-- Line breaks are not visible. -/
theorem visible_splitOn (t : Text) : visible (t.splitOn '\n').flatten = t.visible := by
  rw [flatten_splitOn, visible, visible, List.filter_filter]
  apply List.filter_congr
  intro c _
  by_cases hc : c = '\n'
  · subst hc
    rfl
  · simp [hc]

end Text

namespace Output

open Text

/-- All characters written so far, the breaks between the lines left out. -/
def written (o : Output) : Text := o.lines.flatten ++ o.current

theorem written_push (o : Output) (piece : Text) : (o.push piece).written = o.written ++ piece := by
  simp [written, push]

theorem written_breakLine (o : Output) : o.breakLine.written = o.written := by
  simp [written, breakLine, discard]

theorem written_below (o : Output) (pieces : List Text) :
    (o.below pieces).written = o.written ++ pieces.flatten := by
  induction pieces generalizing o with
  | nil => simp [below]
  | cons piece pieces ih =>
      change ((o.breakLine.push piece).below pieces).written = _
      rw [ih, written_push, written_breakLine]
      simp

theorem visible_addText (o : Output) (t : Text) :
    visible (o.addText t).written = visible o.written ++ visible t := by
  obtain ⟨first, rest, hsplit, hadd⟩ := o.addText_eq t
  rw [hadd, written_below, written_push, ← visible_splitOn t, hsplit]
  simp

theorem visible_endLine (o : Output) : visible o.endLine.written = visible o.written := by
  simp [written, endLine, discard, visible_trimEnd]

theorem visible_discard {o : Output} (h : o.isBlank = true) :
    visible o.discard.written = visible o.written := by
  simp [written, discard, visible_of_allBlank h]

theorem allBlank_alignment (o : Output) : o.alignment.allBlank = true :=
  o.indenting_alignment.allBlank

theorem visible_padTo (o : Output) {alignment : Text} (h : alignment.allBlank = true) :
    visible (o.padTo alignment).written = visible o.written := by
  have hdrop : allBlank (alignment.drop o.column) = true := by
    rw [allBlank_iff]
    intro c hc
    exact allBlank_iff.mp h c (List.mem_of_mem_drop hc)
  rw [padTo, written_push, visible_append, visible_of_allBlank hdrop, List.append_nil]

theorem visible_interior {alignment : Text} (h : alignment.allBlank = true) (line : Text) :
    visible (interior alignment line) = visible line := by
  unfold interior
  split
  · rename_i hl
    rw [List.isEmpty_iff.mp hl]
  · rw [visible_append, visible_of_allBlank h, List.nil_append]

theorem visible_splice (o : Output) (lines : List Text) :
    visible (o.splice lines).written = visible o.written ++ visible lines.flatten := by
  cases lines with
  | nil => simp [splice]
  | cons first rest =>
      cases rest with
      | nil => simpa [splice] using visible_addText o first
      | cons second more =>
          obtain ⟨middle, last, hrest⟩ : ∃ middle last, second :: more = middle ++ [last] :=
            ⟨_, _, (List.dropLast_concat_getLast (by simp)).symm⟩
          have hopened : visible (o.addText first).breakLine.written =
              visible o.written ++ visible first := by
            rw [written_breakLine, visible_addText]
          simp only [splice]
          rw [hrest, List.dropLast_concat, List.getLastD_concat, visible_addText, visible_append,
            visible_of_allBlank o.allBlank_alignment, List.nil_append]
          simp only [written, breakLine, discard, List.append_nil, List.flatten_append,
            visible_append, List.flatten_cons] at hopened ⊢
          rw [hopened, visible_flatten_congr (visible_interior o.allBlank_alignment)]
          simp

theorem visible_addValue (o : Output) (v : Value) :
    visible (o.addValue v).written = visible o.written ++ visible v.content := by
  cases v with
  | lines ls => exact visible_splice o ls
  | _ => exact visible_addText o _

end Output

end Stencil
