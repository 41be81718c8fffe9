import Stencil.Proofs.Machine.Run
import Stencil.Proofs.Output.Pieces

/-! A run on top of what an earlier template has left: its lines, its number of lines and its open
alignments. Only an alignment without its own can tell that they are there. -/

namespace Stencil

/-- The error with its outermost line number raised. -/
def TemplateError.raised (count : Nat) : TemplateError → TemplateError
  | .atLine line source => .atLine (line + count) source
  | e => e

theorem TemplateError.raised_zero (e : TemplateError) : e.raised 0 = e := by
  cases e <;> rfl

theorem TemplateError.raised_raised (e : TemplateError) (n k : Nat) :
    (e.raised n).raised k = e.raised (n + k) := by
  cases e with
  | atLine line source => simp [raised, Nat.add_assoc]
  | _ => rfl

namespace Machine

/-- What a template that has been read to its end leaves behind. -/
structure Past where
  lines : List Text
  alignments : List Text
  /-- The number of lines of the template. -/
  count : Nat

/-- The machine on top of a past. -/
def after (m : Machine) (past : Past) : Machine :=
  { m with
    output := m.output.after past.lines
    alignments := m.alignments ++ past.alignments
    line := m.line + past.count }

/-- No alignment of the past would have been of use. -/
def Apart {α : Type} (past : Past) (result : Except TemplateError α) : Prop :=
  past.alignments = [] ∨ ∀ marker, result ≠ .error (.unbalancedAlignment marker)

variable {σ : Type} (r : Resolver σ) (past : Past) (m : Machine) (s : σ)

/-! ## What a step reads of the machine -/

@[simp] theorem after_active : (m.after past).active = m.active := rfl

@[simp] theorem after_blocks : (m.after past).blocks = m.blocks := rfl

theorem lookup_after (content : Text) : lookup r (m.after past) content s = lookup r m content s :=
  rfl

/-! ## Steps -/

theorem newline_after : (m.after past).newline = m.newline.after past := by
  unfold newline
  rw [after_active]
  cases m.active with
  | false => simp [after, Nat.add_right_comm]
  | true => simp [after, Output.after_endLine, Nat.add_right_comm]

theorem swallowNewline_after : (m.after past).swallowNewline = m.swallowNewline.after past := by
  unfold swallowNewline
  cases hb : m.output.isBlank with
  | false => simp [hb, after, Nat.add_right_comm]
  | true => simp [hb, after, Output.after_discard, Nat.add_right_comm]

theorem expansion_after (v : Option Value) :
    (m.after past).expansion v = (m.expansion v).after past := by
  cases v with
  | none => rfl
  | some v =>
      simp only [expansion]
      split
      · rfl
      · simp [after, withOutput, Output.after_addValue]

theorem execute_after (token : Token)
    (h : Apart past (m.execute r s token).1) :
    (m.after past).execute r s token = mapOk (·.after past) (m.execute r s token) := by
  cases token with
  | text t => simp [execute, after, withOutput, Output.after_addText]
  | expand content =>
      simp only [execute]
      change andThen (lookup r m content s) _ = _
      rcases lookup r m content s with ⟨result, u⟩
      cases result with
      | error e => rfl
      | ok v =>
          rw [andThen_ok, andThen_ok, mapOk_ok, expansion_after]
  | set text =>
      simp only [execute, Machine.set]
      split
      · rfl
      · rename_i a _
        rcases r.assign a.name a.value s with ⟨result, u⟩
        cases result <;> rfl
  | align =>
      simp only [execute, align] at h ⊢
      cases ha : m.alignments with
      | nil =>
          rw [ha] at h
          rcases h with h | h
          · simp [after, ha, h]
          · exact (h .align rfl).elim
      | cons innermost outer => simp [after, ha, withOutput, Output.after_padTo]
  | popAlign =>
      simp only [execute, popAlign] at h ⊢
      cases ha : m.alignments with
      | nil =>
          rw [ha] at h
          rcases h with h | h
          · simp [after, ha, h]
          · exact (h .pop rfl).elim
      | cons innermost outer => simp [after, ha, withAlignments]
  | _ => rfl

theorem process_after (token : Token)
    (h : Apart past (m.process r s token).1) :
    (m.after past).process r s token = mapOk (·.after past) (m.process r s token) := by
  cases hmark : token.mark? with
  | none =>
      by_cases hn : token = .newline
      · subst hn
        simp [process, newline_after]
      cases ha : m.active with
      | true =>
          rw [process_of_active hmark hn ha] at h ⊢
          rw [process_of_active (m := m.after past) hmark hn ha, execute_after r past m s token h]
      | false =>
          rw [process_of_inactive hmark hn ha,
            process_of_inactive (m := m.after past) hmark hn ha]
          rfl
  | some mark =>
      obtain rfl := Token.mark?_eq_some_iff.mp hmark
      cases mark with
      | ifThen key comment =>
          simp only [Mark.token, process, ifThen, lookup_after]
          rw [after_active]
          cases m.active with
          | false => rfl
          | true =>
              rcases lookup r m key s with ⟨result, u⟩
              cases result <;> rfl
      | elseIf key comment =>
          simp only [Mark.token, process, elseIf, after_blocks, lookup_after]
          cases m.blocks with
          | nil => rfl
          | cons scope outer =>
              cases scope with
              | active => rfl
              | inactive =>
                  rcases lookup r m key s with ⟨result, u⟩
                  cases result <;> rfl
              | done => rfl
      | otherwise =>
          simp only [Mark.token, process, otherwise, after_blocks]
          split <;> rfl
      | endIf =>
          simp only [Mark.token, process, endIf, after_blocks]
          split <;> rfl

theorem step_after (token : Token)
    (h : Apart past (m.step r token s).1) :
    (m.after past).step r token s = mapOk (·.after past) (m.step r token s) := by
  cases hn : m.swallow && token == .newline with
  | true =>
      obtain ⟨hs, ht⟩ := Bool.and_eq_true_iff.mp hn
      obtain rfl : token = .newline := by simpa using ht
      rw [step_newline_of_swallow hs, step_newline_of_swallow (m := m.after past) hs,
        swallowNewline_after]
      rfl
  | false =>
    rw [step_of_not_swallowed hn] at h ⊢
    have hprocess : Apart past (m.process r s token).1 := by
      rcases h with h | h
      · exact .inl h
      · refine .inr fun marker he => h marker ?_
        rw [andThen, he]
        rfl
    rw [step_of_not_swallowed (m := m.after past) hn, process_after r past m s token hprocess]
    rcases m.process r s token with ⟨result, u⟩
    cases result <;> rfl

/-! ## Runs -/

/-- The outcome with an error at a later line. -/
def raised {α : Type} (count : Nat) (x : Outcome σ α) : Outcome σ α :=
  (x.1.mapError (·.raised count), x.2)

@[simp] theorem raised_ok {α : Type} (count : Nat) (a : α) (s : σ) :
    raised count (.ok a, s) = (.ok a, s) := rfl

@[simp] theorem raised_error {α : Type} (count : Nat) (e : TemplateError) (s : σ) :
    raised count ((.error e, s) : Outcome σ α) = (.error (e.raised count), s) := rfl

theorem raised_zero {α : Type} (x : Outcome σ α) : raised 0 x = x := by
  obtain ⟨result, s⟩ := x
  cases result with
  | error e => simp [e.raised_zero]
  | ok a => rfl

theorem raised_raised {α : Type} (x : Outcome σ α) (n k : Nat) :
    raised k (raised n x) = raised (n + k) x := by
  obtain ⟨result, s⟩ := x
  cases result with
  | error e => simp [e.raised_raised]
  | ok a => rfl

/-- A run reports that no alignment was left. -/
def Unbalanced {α : Type} (result : Except TemplateError α) : Prop :=
  ∃ line marker, result = .error (.atLine line (.unbalancedAlignment marker))

theorem steps_after {items : List Item}
    (h : past.alignments = [] ∨ ¬ Unbalanced (steps r items m s).1) :
    steps r items (m.after past) s =
      raised past.count (mapOk (·.after past) (steps r items m s)) := by
  induction items generalizing m s with
  | nil => rfl
  | cons item items ih =>
      cases item with
      | error e => rfl
      | ok token =>
          have hstep : Apart past (m.step r token s).1 := by
            rcases h with h | h
            · exact .inl h
            · refine .inr fun marker he => h ⟨m.line, marker, ?_⟩
              have hlocated : (located m.line (m.step r token s)).1 =
                  .error (.atLine m.line (.unbalancedAlignment marker)) := by
                rw [located, he]
                rfl
              rw [steps_cons, chain_error_of hlocated]
          rw [steps_cons, step_after r past m s token hstep]
          rw [steps_cons] at h ⊢
          cases hs : m.step r token s with
          | mk result u =>
              rw [hs] at h
              cases result with
              | error e => rfl
              | ok n => exact ih n u h

theorem finish_after (h : 2 ≤ m.line) :
    (m.after past).finish =
      (m.finish.map (past.lines ++ ·)).mapError (·.raised past.count) := by
  unfold finish
  rw [after_blocks]
  cases hb : m.blocks.isEmpty with
  | true => rfl
  | false =>
      have hline : max (m.line + past.count - 1) 1 = max (m.line - 1) 1 + past.count := by omega
      change Except.error (TemplateError.atLine (max (m.line + past.count - 1) 1) _) = _
      rw [hline]
      rfl

end Machine

end Stencil
