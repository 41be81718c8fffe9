import Stencil.Proofs.Expand.Invariant

/-! Lists of lines in the output. The lines of a list below its first start in the column in which
the first starts, behind the indentation of the line that the list was spliced into. -/

namespace Stencil

open Text

namespace Output

variable {o : Output}

/-- The output behind a list whose lines but the first are behind an alignment. Between the first
and the last line empty lines stay empty. -/
def spliced (o : Output) (alignment first : Text) (inner : List Text) (last : Text) : Output where
  lines := o.lines ++ (o.current ++ first) ::
    inner.map fun line => if line = [] then [] else alignment ++ line
  current := alignment ++ last
  column := o.column + last.length

theorem interior_eq (alignment line : Text) :
    interior alignment line = if line = [] then [] else alignment ++ line := by
  simp [interior]

/-- Lines without line breaks are written as they are. -/
theorem Tidy.splice_eq (h : o.Tidy) {first last : Text} {inner : List Text}
    (hs : Unbroken (first :: (inner ++ [last]))) :
    o.splice (first :: (inner ++ [last])) = o.spliced o.alignment first inner last := by
  obtain ⟨second, more, hrest⟩ : ∃ second more, inner ++ [last] = second :: more :=
    List.exists_cons_of_ne_nil (by simp)
  have haligned : '\n' ∉ o.alignment ++ last := by
    simp [o.indenting_alignment.not_mem_newline, hs last]
  rw [hrest, Output.splice, ← hrest, List.dropLast_concat, List.getLastD_concat,
    addText_of_single (hs first (by simp)), addText_of_single haligned]
  simp [spliced, Output.push, breakLine, discard, h.length_alignment, interior_eq]

end Output

namespace Machine

variable {σ : Type} {r : Resolver σ} {m : Machine} {s t : σ}

/-- An executed directive expands to a list of lines, none of which is broken. -/
structure GivesLines (r : Resolver σ) (m : Machine) (t : σ) (content : Text) (ls : List Text)
    (t' : σ) : Prop where
  active : m.active = true
  value : lookup r m content t = (.ok (some (.lines ls)), t')
  single : Unbroken ls

theorem GivesLines.step {content : Text} {ls : List Text} {t' : σ}
    (h : GivesLines r m t content ls t') (hne : ls ≠ []) :
    m.step r (.expand content) t = (.ok (m.withOutput (m.output.splice ls)), t') := by
  have hempty : (Value.lines ls).isEmpty = false := by simpa [Value.isEmpty] using hne
  rw [(Step.expand h.active h.value).execution, expansion, if_neg (by simp [hempty])]
  rfl

/-- In any state that a run can reach, an executed list of lines is written behind the line that is
being built. Its lines below the first start in the column in which the first starts, behind the
leading tabs and spaces of that line; empty lines between the first and the last stay empty. A later
list on the same line keeps the alignment of the first and reaches to the column behind it. -/
theorem expand_lines_aligned {front : List Item} (hm : steps r front .start s = (.ok m, t)) :
    m.output.column = m.output.current.length ∧
    (∀ content only t', GivesLines r m t content [only] t' →
      m.step r (.expand content) t =
        (.ok (m.withOutput ⟨m.output.lines, m.output.current ++ only,
          m.output.column + only.length⟩), t')) ∧
    ∀ content first inner last t', GivesLines r m t content (first :: (inner ++ [last])) t' →
      ∃ alignment next, Aligns m.output.current alignment ∧
        alignment.length = m.output.column ∧
        next = m.withOutput (m.output.spliced alignment first inner last) ∧
        m.step r (.expand content) t = (.ok next, t') ∧
        ∀ between k u gap content₂ first₂ inner₂ last₂ u',
          steps r between next t' = (.ok k, u) →
          k.output.current = next.output.current ++ gap →
          GivesLines r k u content₂ (first₂ :: (inner₂ ++ [last₂])) u' →
          ∃ alignment₂, Aligns k.output.current alignment₂ ∧ alignment <+: alignment₂ ∧
            alignment₂.length = m.output.column + last.length + gap.length ∧
            k.step r (.expand content₂) u =
              (.ok (k.withOutput (k.output.spliced alignment₂ first₂ inner₂ last₂)), u') := by
  have htidy := (sound_of_steps hm).output
  refine ⟨htidy.column, ?_, ?_⟩
  · intro content only t' h
    rw [h.step (by simp), Output.splice, Output.addText_of_single (h.single only (by simp))]
    rfl
  · intro content first inner last t' h
    have hstep := h.step (by simp)
    rw [htidy.splice_eq h.single] at hstep
    refine ⟨m.output.alignment, _, htidy.aligns, htidy.length_alignment, rfl, hstep, ?_⟩
    intro between k u gap content₂ first₂ inner₂ last₂ u' hbetween hcurrent h₂
    have hk : k.output.Tidy :=
      (steps_preserve r Sound.step ((sound_of_steps hm).step (step_relation hstep)) hbetween).output
    have haligns := hk.aligns
    refine ⟨k.output.alignment, haligns, ?_, ?_, ?_⟩
    · rw [hcurrent, withOutput, Output.spliced, List.append_assoc] at haligns
      exact haligns.extends m.output.indenting_alignment
    · rw [hk.length_alignment, hk.column, hcurrent]
      simp [withOutput, Output.spliced, htidy.length_alignment, Nat.add_assoc]
    · rw [h₂.step (by simp), hk.splice_eq h₂.single]

/-- A list behind a tab and two characters, and another one behind it and a space. -/
theorem expand_lines_aligned_twice :
    let r : Resolver (Bindings Value) := .bindings
    let values : Bindings Value := ⟨[(['a'], .lines [['p'], [], ['q']]),
      (['b'], .lines [['u'], ['v']])]⟩
    let line : Text := ['\t', 'x', ' ']
    let alignment : Text := ['\t', ' ', ' ']
    let alignment₂ : Text := ['\t', ' ', ' ', ' ', ' ']
    let before : Machine := ⟨⟨[], line, 3⟩, [], [], 1, false⟩
    let next : Machine := ⟨⟨[line ++ ['p'], []], alignment ++ ['q'], 4⟩, [], [], 1, false⟩
    let behind : Machine := ⟨⟨[line ++ ['p'], []], alignment ++ ['q', ' '], 5⟩, [], [], 1, false⟩
    let lines : List Text := [line ++ ['p'], [], alignment ++ ['q', ' ', 'u']]
    let last : Machine := ⟨⟨lines, alignment₂ ++ ['v'], 6⟩, [], [], 1, false⟩
    steps r [.ok (.text line)] .start values = (.ok before, values) ∧
      GivesLines r before values ['a'] [['p'], [], ['q']] values ∧
      before.step r (.expand ['a']) values = (.ok next, values) ∧
      steps r [.ok (.text [' '])] next values = (.ok behind, values) ∧
      GivesLines r behind values ['b'] [['u'], ['v']] values ∧
      behind.step r (.expand ['b']) values = (.ok last, values) := by
  intro r values line alignment alignment₂ before next behind lines last
  have hbefore : steps r [.ok (.text line)] .start values = (.ok before, values) := rfl
  have hfirst : GivesLines r before values ['a'] [['p'], [], ['q']] values :=
    ⟨rfl, rfl, by simp [Unbroken]⟩
  have hbehind : steps r [.ok (.text [' '])] next values = (.ok behind, values) := rfl
  have hsecond : GivesLines r behind values ['b'] [['u'], ['v']] values :=
    ⟨rfl, rfl, by simp [Unbroken]⟩
  obtain ⟨found, next', haligns, -, rfl, hstep, hlater⟩ :=
    (expand_lines_aligned hbefore).2.2 ['a'] ['p'] [[]] ['q'] values hfirst
  have htidy : before.output.Tidy := ⟨rfl, by decide⟩
  obtain rfl : found = alignment := haligns.unique htidy.aligns
  obtain ⟨found₂, haligns₂, -, -, hstep₂⟩ :=
    hlater _ behind values [' '] ['b'] ['u'] [] ['v'] values hbehind rfl hsecond
  have htidy₂ : behind.output.Tidy := ⟨rfl, by decide⟩
  obtain rfl : found₂ = alignment₂ := haligns₂.unique htidy₂.aligns
  exact ⟨hbefore, hfirst, hstep, hbehind, hsecond, hstep₂⟩

end Machine

end Stencil
