import Stencil.Template.Output
import Stencil.Proofs.Text.Search
import Stencil.Proofs.Text.Trim

/-! Writing text to the output piece by piece, and what of the output each way of writing reads and
keeps. -/

namespace Stencil.Output

/-! ## Pieces -/

/-- Writes each piece on a line of its own, below the line being built. -/
def below (o : Output) (pieces : List Text) : Output :=
  pieces.foldl (fun o piece => o.breakLine.push piece) o

/-- Text is written as its pieces between line breaks. -/
theorem addText_eq (o : Output) (t : Text) :
    ∃ first rest, t.splitOn '\n' = first :: rest ∧ o.addText t = (o.push first).below rest := by
  unfold addText
  cases h : t.splitOn '\n' with
  | nil => exact (List.splitOn_ne_nil _ _ h).elim
  | cons first rest => exact ⟨first, rest, rfl, rfl⟩

theorem addText_of_single {o : Output} {t : Text} (h : '\n' ∉ t) : o.addText t = o.push t := by
  rw [addText, List.splitOn_eq_singleton h]
  rfl

/-- Text behind a text of one line continues that line. -/
theorem addText_append {o : Output} {t : Text} (h : '\n' ∉ t) (u : Text) :
    o.addText (t ++ u) = (o.addText t).addText u := by
  obtain ⟨first, rest, hsplit, hadd⟩ := (o.push t).addText_eq u
  have hpush : o.push (t ++ first) = (o.push t).push first := by
    simp [push, Nat.add_assoc]
  rw [addText_of_single h, hadd, ← hpush, addText, Text.splitOn_append h hsplit]
  rfl

theorem mem_current_below {c : Char} {o : Output} {pieces : List Text}
    (h : c ∈ (o.below pieces).current) : c ∈ o.current ∨ ∃ piece ∈ pieces, c ∈ piece := by
  induction pieces generalizing o with
  | nil => exact .inl h
  | cons piece pieces ih =>
      rcases ih h with h | ⟨p, hp, hc⟩
      · exact .inr ⟨piece, by simp, by simpa [breakLine, discard, push] using h⟩
      · exact .inr ⟨p, by simp [hp], hc⟩

/-- Blank text leaves a blank line blank. -/
theorem isBlank_addText {o : Output} {t : Text} (ho : o.isBlank = true) (ht : t.allBlank = true) :
    (o.addText t).isBlank = true := by
  obtain ⟨first, rest, hsplit, hadd⟩ := o.addText_eq t
  rw [hadd, isBlank, Text.allBlank_iff]
  intro c hc
  have hpiece : ∀ piece ∈ first :: rest, c ∈ piece → Stencil.isBlank c = true := by
    intro piece hp hc
    rw [← hsplit] at hp
    exact Text.allBlank_iff.mp ht c (Text.mem_of_mem_splitOn hp hc)
  rcases mem_current_below hc with hc | ⟨piece, hp, hc⟩
  · rcases List.mem_append.mp hc with hc | hc
    · exact Text.allBlank_iff.mp ho c hc
    · exact hpiece first (by simp) hc
  · exact hpiece piece (by simp [hp]) hc

/-! ## Output behind earlier lines -/

/-- The output with lines that were completed before it. -/
def after (o : Output) (earlier : List Text) : Output := { o with lines := earlier ++ o.lines }

variable (o : Output) (earlier : List Text)

@[simp] theorem after_isBlank : (o.after earlier).isBlank = o.isBlank := rfl

@[simp] theorem after_alignment : (o.after earlier).alignment = o.alignment := rfl

theorem after_push (piece : Text) : (o.after earlier).push piece = (o.push piece).after earlier :=
  rfl

theorem after_discard : (o.after earlier).discard = o.discard.after earlier := rfl

theorem after_padTo (alignment : Text) :
    (o.after earlier).padTo alignment = (o.padTo alignment).after earlier := rfl

theorem after_breakLine : (o.after earlier).breakLine = o.breakLine.after earlier := by
  simp [after, breakLine, discard]

theorem after_endLine : (o.after earlier).endLine = o.endLine.after earlier := by
  simp [after, endLine, discard]

theorem after_below (pieces : List Text) :
    (o.after earlier).below pieces = (o.below pieces).after earlier := by
  induction pieces generalizing o with
  | nil => rfl
  | cons piece pieces ih =>
      change below ((o.after earlier).breakLine.push piece) pieces = _
      rw [after_breakLine, after_push, ih]
      rfl

theorem after_addText (t : Text) : (o.after earlier).addText t = (o.addText t).after earlier := by
  unfold addText
  cases t.splitOn '\n' with
  | nil => rfl
  | cons first rest => exact after_below (o.push first) earlier rest

theorem after_splice (lines : List Text) :
    (o.after earlier).splice lines = (o.splice lines).after earlier := by
  cases lines with
  | nil => rfl
  | cons first rest =>
      cases rest with
      | nil => exact after_addText o earlier first
      | cons second more =>
          simp only [splice]
          rw [after_alignment, after_addText, after_breakLine, ← after_addText]
          congr 1
          simp [after]

theorem after_addValue (v : Value) :
    (o.after earlier).addValue v = (o.addValue v).after earlier := by
  cases v with
  | lines ls => exact after_splice o earlier ls
  | _ => exact after_addText o earlier _

end Stencil.Output
