import Stencil.Proofs.Expand.Invariant

/-! Which lines of an expansion hold a line break. Text is broken into lines wherever it is written,
and of a list of lines the first and the last; those between them are completed as they are. -/

namespace Stencil

open Text

namespace Machine

variable {σ : Type} {r : Resolver σ} {m n : Machine} {s t : σ} {token : Token}

/-! ## Lines that are not broken -/

/-- The inner lines of the value that an expansion is given. -/
def innerLines (r : Resolver σ) (m : Machine) (s : σ) : Token → List Text
  | .expand content =>
    match lookup r m content s with
    | (.ok (some v), _) => v.inner
    | _ => []
  | _ => []

/-- The inner lines that a visit completes. In a skipped branch there are none. -/
def Visit.innerLines (r : Resolver σ) (v : Visit σ) : List Text :=
  if v.machine.active then Machine.innerLines r v.machine v.state v.token else []

theorem innerLines_active (h : m.active = true) :
    Visit.innerLines r ⟨m, token, s⟩ = innerLines r m s token := if_pos h

theorem innerLines_inactive (h : m.active = false) : Visit.innerLines r ⟨m, token, s⟩ = [] := by
  rw [Visit.innerLines, h]
  rfl

/-- Only an expansion has inner lines. -/
theorem innerLines_plain (h : innerLines r m s token = []) :
    Visit.innerLines r ⟨m, token, s⟩ = [] := by
  cases ha : m.active with
  | false => exact innerLines_inactive ha
  | true => exact (innerLines_active ha).trans h

theorem unbroken_expansion (h : m.output.Tidy) (v : Option Value) :
    Unbroken (m.expansion v).output.lines ↔
      Unbroken m.output.lines ∧ Unbroken (v.elim [] Value.inner) := by
  cases v with
  | none => exact (and_iff_left unbroken_nil).symm
  | some v =>
      rw [expansion]
      split
      · rename_i hv
        have hnil : v.inner = [] := by
          cases v with
          | lines ls =>
              obtain rfl : ls = [] := List.isEmpty_iff.mp hv
              rfl
          | _ => rfl
        rw [Option.elim, hnil]
        exact (and_iff_left unbroken_nil).symm
      · exact h.unbroken_addValue v

/-! ## Steps and runs -/

/-- A step completes no line with a line break but the inner lines of its token. -/
theorem Sound.unbroken_step (hm : Sound m) (h : Step r m s token n t) :
    Unbroken n.output.lines ↔
      Unbroken m.output.lines ∧ Unbroken (Visit.innerLines r ⟨m, token, s⟩) := by
  have hplain (hi : innerLines r m s token = []) (hn : Unbroken n.output.lines ↔
      Unbroken m.output.lines) : Unbroken n.output.lines ↔
        Unbroken m.output.lines ∧ Unbroken (Visit.innerLines r ⟨m, token, s⟩) := by
    rw [innerLines_plain hi, and_iff_left unbroken_nil]
    exact hn
  cases h with
  | swallowed h =>
      refine hplain rfl ?_
      unfold swallowNewline
      dsimp only
      split <;> exact Iff.rfl
  | newline h =>
      refine hplain rfl ?_
      unfold Machine.newline
      dsimp only
      split
      · exact hm.output.unbroken_endLine
      · exact Iff.rfl
  | @mark mark blocks _ h => exact hplain (by cases mark <;> rfl) Iff.rfl
  | passed hp hn h =>
      rw [innerLines_inactive h]
      exact (and_iff_left unbroken_nil).symm
  | text h => exact hplain rfl (hm.output.unbroken_addText _)
  | @expand content v _ h hl =>
      have hinner : innerLines r m s (.expand content) = v.elim [] Value.inner := by
        rw [innerLines, hl]
        cases v <;> rfl
      rw [innerLines_active h, hinner]
      exact unbroken_expansion hm.output v
  | set h ha hr => exact hplain rfl Iff.rfl
  | pushAlign h => exact hplain rfl Iff.rfl
  | align h ha => exact hplain rfl Iff.rfl
  | popAlign h ha => exact hplain rfl Iff.rfl

theorem Sound.unbroken_steps {items : List Item} (hm : Sound m)
    (h : steps r items m s = (.ok n, t)) :
    Unbroken n.output.lines ↔
      Unbroken m.output.lines ∧ ∀ v ∈ visits r items m s, Unbroken (v.innerLines r) := by
  induction items generalizing m s with
  | nil =>
      obtain ⟨rfl, rfl⟩ := ok_inj.mp h
      simp [visits]
  | cons item items ih =>
      cases item with
      | error e => simp at h
      | ok token =>
          obtain ⟨k, u, hstep, hrest⟩ := (steps_cons_eq_ok r).mp h
          rw [visits_cons r hstep.execution, List.forall_mem_cons, ih (hm.step hstep) hrest,
            hm.unbroken_step hstep, and_assoc]

end Machine

open Machine Lines

/-! ## The text of an expansion -/

/-- Splitting the text at every line break gives the lines back when none of them holds one. -/
theorem splitOn_joined_iff {lines : List Text} (h : lines ≠ []) :
    (Text.joined ['\n'] lines).splitOn '\n' = lines ↔ Unbroken lines := by
  constructor
  · intro hs line hline
    exact Text.not_mem_of_mem_splitOn (hs ▸ hline)
  · intro hu
    exact List.splitOn_intercalate '\n' hu h

variable {σ : Type} (r : Resolver σ)

/-- The lines of an expansion are single lines if and only if the lists that it was given have no
line break in a line that is neither the first nor the last; and then splitting its text gives its
lines back. -/
theorem expand_unbroken_iff (template : Text) (s : σ) (lines : List Text) (s' : σ)
    (h : expand r template s = (.ok lines, s')) :
    ((∀ line ∈ lines, '\n' ∉ line) ↔
      ∀ v ∈ visits r (tokenize template) .start s, ∀ line ∈ v.innerLines r, '\n' ∉ line) ∧
    (lines ≠ [] → ∃ text, expandToText r template s = (.ok text, s') ∧
      (text.splitOn '\n' = lines ↔
        ∀ v ∈ visits r (tokenize template) .start s, ∀ line ∈ v.innerLines r, '\n' ∉ line)) := by
  obtain ⟨m, hsteps, -, rfl⟩ := expand_eq_ok h
  have hlines : Unbroken m.output.lines ↔
      ∀ v ∈ visits r (tokenize template) .start s, Unbroken (v.innerLines r) := by
    rw [tokenize_eq, sound_start.unbroken_steps hsteps]
    exact and_iff_right unbroken_nil
  refine ⟨hlines, fun hne => ⟨Text.joined ['\n'] m.output.lines, ?_, ?_⟩⟩
  · rw [expandToText, h]
    rfl
  · exact (splitOn_joined_iff hne).trans hlines

/-- Line breaks in a text and at both ends of a list. -/
theorem expand_unbroken_iff_ends :
    let template : Text := "[[[t]]] [[[k]]]".toList
    let values : Bindings Value :=
      ⟨[(['t'], .text "a\nb".toList), (['k'], .lines ["c\nd".toList, ['e'], "f\ng".toList])]⟩
    let lines : List Text := [['a'], "b c".toList, ['d'], "  e".toList, "  f".toList, ['g']]
    expand Resolver.bindings template values = (.ok lines, values) ∧
      (∀ line ∈ lines, '\n' ∉ line) ∧
      ∃ text, expandToText Resolver.bindings template values = (.ok text, values) ∧
        text.splitOn '\n' = lines := by
  intro template values lines
  have hitems : tokenize template =
      ofTokens [.expand ['t'], .text [' '], .expand ['k'], .newline] := by
    rw [tokenize_line rfl]
    rfl
  have h : expand Resolver.bindings template values = (.ok lines, values) := by
    rw [expand, hitems]
    rfl
  have hinner : ∀ v ∈ visits Resolver.bindings (tokenize template) .start values,
      ∀ line ∈ v.innerLines Resolver.bindings, '\n' ∉ line := by
    rw [hitems]
    decide
  obtain ⟨hsingle, htext⟩ := expand_unbroken_iff Resolver.bindings template values lines values h
  obtain ⟨text, htext, hsplit⟩ := htext (by decide)
  exact ⟨h, hsingle.mpr hinner, text, htext, hsplit.mpr hinner⟩

/-- A line break inside the second of three lines. -/
theorem expand_broken_inner :
    let template : Text := "[[[v]]]".toList
    let values : Bindings Value := ⟨[(['v'], .lines [['a'], "b\nc".toList, ['d']])]⟩
    let lines : List Text := [['a'], "b\nc".toList, ['d']]
    expand Resolver.bindings template values = (.ok lines, values) ∧
      (¬ ∀ line ∈ lines, '\n' ∉ line) ∧
      expandToText Resolver.bindings template values = (.ok "a\nb\nc\nd".toList, values) ∧
      "a\nb\nc\nd".toList.splitOn '\n' ≠ lines := by
  intro template values lines
  have h : expand Resolver.bindings template values = (.ok lines, values) := by
    rw [expand, tokenize_line rfl]
    rfl
  refine ⟨h, by decide, ?_, by decide⟩
  rw [expandToText, h]
  rfl

end Stencil
