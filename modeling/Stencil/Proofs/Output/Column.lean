import Stencil.Proofs.Output.Pieces

/-! The line being built is a single line and the column is its width. Alignments consist of spaces
and tabs, and reach to the column. The completed lines are single lines as well, but for those that
a list is given between its first and its last. -/

namespace Stencil

namespace Text

/-- The text consists of spaces and tabs. -/
def Indenting (t : Text) : Prop := ∀ c ∈ t, c = ' ' ∨ c = '\t'

/-- The longest run of spaces and tabs that a text starts with. -/
structure LeadingRun (t run : Text) : Prop where
  starts : run <+: t
  indenting : Indenting run
  longest : ∀ other, other <+: t → Indenting other → other.length ≤ run.length

theorem Indenting.not_mem_newline {t : Text} (h : Indenting t) : '\n' ∉ t := by
  intro hn
  rcases h _ hn with hc | hc <;> simp at hc

theorem Indenting.allBlank {t : Text} (h : Indenting t) : t.allBlank = true := by
  rw [allBlank_iff]
  intro c hc
  rcases h c hc with rfl | rfl <;> rfl

/-- The alignment is the leading run of spaces and tabs of a line, filled up with spaces to the
width of the line. -/
def Aligns (line alignment : Text) : Prop :=
  ∃ run, LeadingRun line run ∧ alignment = run ++ spaces (line.length - run.length)

variable {line alignment : Text}

theorem Aligns.length (h : Aligns line alignment) : alignment.length = line.length := by
  obtain ⟨run, hrun, rfl⟩ := h
  have hle := hrun.starts.length_le
  simp only [spaces, List.length_append, List.length_replicate]
  omega

theorem Aligns.unique {other : Text} (h : Aligns line alignment) (ho : Aligns line other) :
    alignment = other := by
  obtain ⟨run, hrun, rfl⟩ := h
  obtain ⟨run', hrun', rfl⟩ := ho
  have hlength : run.length = run'.length :=
    Nat.le_antisymm (hrun'.longest run hrun.starts hrun.indenting)
      (hrun.longest run' hrun'.starts hrun'.indenting)
  have hruns := List.prefix_of_prefix_length_le hrun.starts hrun'.starts (Nat.le_of_eq hlength)
  rw [hruns.eq_of_length hlength]

/-- An alignment that a line starts with is kept by the alignment of that line. -/
theorem Aligns.extends {start rest : Text} (h : Aligns (start ++ rest) alignment)
    (hs : Indenting start) : start <+: alignment := by
  obtain ⟨run, hrun, rfl⟩ := h
  have hstart : start <+: start ++ rest := List.prefix_append _ _
  have hle := hrun.longest start hstart hs
  exact (List.prefix_of_prefix_length_le hstart hrun.starts hle).trans (List.prefix_append _ _)

/-- No line holds a line break. -/
def Unbroken (lines : List Text) : Prop := ∀ line ∈ lines, '\n' ∉ line

theorem unbroken_nil : Unbroken [] := by simp [Unbroken]

theorem unbroken_append {xs ys : List Text} :
    Unbroken (xs ++ ys) ↔ Unbroken xs ∧ Unbroken ys :=
  List.forall_mem_append

/-- A single line more changes nothing. -/
theorem unbroken_concat {lines : List Text} {line : Text} (h : '\n' ∉ line) :
    Unbroken (lines ++ [line]) ↔ Unbroken lines := by
  rw [unbroken_append]
  exact and_iff_left fun other hmem => by rwa [List.mem_singleton.mp hmem]

end Text

/-- The lines of a list that are neither its first nor its last. -/
def Value.inner : Value → List Text
  | .lines ls => ls.tail.dropLast
  | _ => []

namespace Output

open Text

variable {o : Output}

/-! ## Indentation and alignment -/

theorem leadingRun_indentation (o : Output) : LeadingRun o.current o.indentation where
  starts := List.takeWhile_prefix _
  indenting := by
    intro c hc
    have h := List.all_eq_true.mp List.all_takeWhile c hc
    simpa using h
  longest := by
    rintro other ⟨rest, hrest⟩ hother
    have hspaces : ∀ c ∈ other, (c == ' ' || c == '\t') = true := by
      intro c hc
      simpa using hother c hc
    rw [indentation, ← hrest, List.takeWhile_append_of_pos hspaces, List.length_append]
    exact Nat.le_add_right _ _

theorem indenting_alignment (o : Output) : Indenting o.alignment := by
  intro c hc
  rcases List.mem_append.mp hc with hc | hc
  · exact o.leadingRun_indentation.indenting c hc
  · exact .inl (List.mem_replicate.mp hc).2

/-! ## The line being built -/

/-- The column is the width of the line being built, which holds no line break. -/
structure Tidy (o : Output) : Prop where
  column : o.column = o.current.length
  single : '\n' ∉ o.current

theorem tidy_discard (o : Output) : o.discard.Tidy := ⟨rfl, by simp [discard]⟩

theorem tidy_empty : Output.empty.Tidy := tidy_discard empty

theorem Tidy.push (h : o.Tidy) {piece : Text} (hp : '\n' ∉ piece) : (o.push piece).Tidy where
  column := by simp [Output.push, h.column]
  single := by simp [Output.push, h.single, hp]

/-- Breaking the line leaves an empty one, whatever stood in it. -/
theorem tidy_breakLine (o : Output) : o.breakLine.Tidy := tidy_discard _

theorem tidy_endLine (o : Output) : o.endLine.Tidy := tidy_discard _

theorem Tidy.below (h : o.Tidy) {pieces : List Text} (hp : ∀ piece ∈ pieces, '\n' ∉ piece) :
    (o.below pieces).Tidy := by
  induction pieces generalizing o with
  | nil => exact h
  | cons piece pieces ih =>
      have hpush : (o.breakLine.push piece).Tidy := o.tidy_breakLine.push (hp piece (by simp))
      exact ih hpush fun piece hmem => hp piece (List.mem_cons_of_mem _ hmem)

theorem Tidy.addText (h : o.Tidy) (t : Text) : (o.addText t).Tidy := by
  obtain ⟨first, rest, hsplit, hadd⟩ := o.addText_eq t
  have hpiece : ∀ piece ∈ first :: rest, '\n' ∉ piece := by
    intro piece hmem
    exact not_mem_of_mem_splitOn (hsplit ▸ hmem)
  rw [hadd]
  exact (h.push (hpiece first (by simp))).below fun piece hmem =>
    hpiece piece (List.mem_cons_of_mem _ hmem)

/-- Lines that are completed do not count for the column. -/
theorem Tidy.withLines (h : o.Tidy) (lines : List Text) : Tidy { o with lines } :=
  ⟨h.column, h.single⟩

theorem Tidy.splice (h : o.Tidy) (lines : List Text) : (o.splice lines).Tidy := by
  cases lines with
  | nil => exact h
  | cons first rest =>
      cases rest with
      | nil => exact h.addText first
      | cons second more => exact ((tidy_breakLine _).withLines _).addText _

theorem Tidy.addValue (h : o.Tidy) (v : Value) : (o.addValue v).Tidy := by
  cases v with
  | lines ls => exact h.splice ls
  | _ => exact h.addText _

theorem Tidy.padTo (h : o.Tidy) {alignment : Text} (ha : Indenting alignment) :
    (o.padTo alignment).Tidy :=
  h.push fun hn => ha.not_mem_newline (List.mem_of_mem_drop hn)

/-- The indentation is no wider than the column. -/
theorem Tidy.length_indentation_le (h : o.Tidy) : o.indentation.length ≤ o.column := by
  rw [h.column]
  exact o.leadingRun_indentation.starts.length_le

theorem Tidy.aligns (h : o.Tidy) : Aligns o.current o.alignment := by
  refine ⟨o.indentation, o.leadingRun_indentation, ?_⟩
  rw [← h.column]
  rfl

theorem Tidy.length_alignment (h : o.Tidy) : o.alignment.length = o.column :=
  h.aligns.length.trans h.column.symm

/-! ## The completed lines -/

theorem Tidy.unbroken_breakLine (h : o.Tidy) : Unbroken o.breakLine.lines ↔ Unbroken o.lines :=
  unbroken_concat h.single

theorem Tidy.unbroken_endLine (h : o.Tidy) : Unbroken o.endLine.lines ↔ Unbroken o.lines := by
  obtain ⟨gap, -, hcurrent⟩ := exists_blank_trimEnd o.current
  refine unbroken_concat fun hn => h.single ?_
  rw [hcurrent]
  exact List.mem_append_left gap hn

theorem Tidy.unbroken_below (h : o.Tidy) {pieces : List Text}
    (hp : ∀ piece ∈ pieces, '\n' ∉ piece) :
    Unbroken (o.below pieces).lines ↔ Unbroken o.lines := by
  induction pieces generalizing o with
  | nil => exact Iff.rfl
  | cons piece pieces ih =>
      have hpush : (o.breakLine.push piece).Tidy := o.tidy_breakLine.push (hp piece (by simp))
      have hrest := ih hpush fun piece hmem => hp piece (List.mem_cons_of_mem _ hmem)
      exact hrest.trans h.unbroken_breakLine

theorem Tidy.unbroken_addText (h : o.Tidy) (t : Text) :
    Unbroken (o.addText t).lines ↔ Unbroken o.lines := by
  obtain ⟨first, rest, hsplit, hadd⟩ := o.addText_eq t
  have hpiece : ∀ piece ∈ first :: rest, '\n' ∉ piece := by
    intro piece hmem
    exact not_mem_of_mem_splitOn (hsplit ▸ hmem)
  rw [hadd]
  exact (h.push (hpiece first (by simp))).unbroken_below fun piece hmem =>
    hpiece piece (List.mem_cons_of_mem _ hmem)

/-- The alignment in front of a line holds no line break. -/
theorem unbroken_interior {alignment : Text} (h : Indenting alignment) (lines : List Text) :
    Unbroken (lines.map (interior alignment)) ↔ Unbroken lines := by
  unfold Unbroken
  rw [List.forall_mem_map]
  refine forall₂_congr fun line _ => ?_
  cases line with
  | nil => simp [interior]
  | cons c line => simp [interior, h.not_mem_newline]

/-- Only the lines between the first and the last are not broken when they are written. -/
theorem Tidy.unbroken_splice (h : o.Tidy) (lines : List Text) :
    Unbroken (o.splice lines).lines ↔ Unbroken o.lines ∧ Unbroken lines.tail.dropLast := by
  cases lines with
  | nil => exact (and_iff_left unbroken_nil).symm
  | cons first rest =>
      cases rest with
      | nil => exact (h.unbroken_addText first).trans (and_iff_left unbroken_nil).symm
      | cons second more =>
          have hfirst : Unbroken (o.addText first).breakLine.lines ↔ Unbroken o.lines :=
            (h.addText first).unbroken_breakLine.trans (h.unbroken_addText first)
          have hopened := (o.addText first).tidy_breakLine
          rw [Output.splice, (hopened.withLines _).unbroken_addText, unbroken_append, hfirst,
            unbroken_interior o.indenting_alignment]
          rfl

theorem Tidy.unbroken_addValue (h : o.Tidy) (v : Value) :
    Unbroken (o.addValue v).lines ↔ Unbroken o.lines ∧ Unbroken v.inner := by
  cases v with
  | lines ls => exact h.unbroken_splice ls
  | _ => exact (h.unbroken_addText _).trans (and_iff_left unbroken_nil).symm

end Output

end Stencil
