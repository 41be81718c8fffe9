import Stencil.Proofs.Machine.Run
import Stencil.Proofs.Output.Pieces
import Stencil.Proofs.Scan.Items

/-! A line break is swallowed only on a blank line. Hence a template that has been read to its end
with every block closed leaves nothing of its last line behind. -/

namespace Stencil.Machine

open Lines

variable {σ : Type} {r : Resolver σ} {m n : Machine} {s t : σ} {token : Token}

/-- Only a blank line waits for its line break to be swallowed. -/
def Settled (m : Machine) : Prop := m.swallow = true → m.output.isBlank = true

theorem settled_start : Settled .start := fun h => by simp [start] at h

theorem settled_silent (m : Machine) : Settled m.silent := fun h => h

theorem settled_of_swallow (h : m.swallow = false) : Settled m := fun h' => by simp [h] at h'

theorem Settled.step (hm : Settled m) (h : Step r m s token n t) : Settled n := by
  cases h with
  | swallowed h => exact settled_of_swallow rfl
  | newline h => exact settled_of_swallow rfl
  | mark h => exact settled_silent _
  | passed hp hn h =>
      intro hw
      exact hm (Bool.and_eq_true_iff.mp hw).1
  | text h =>
      intro hw
      obtain ⟨hs, hb⟩ := Bool.and_eq_true_iff.mp hw
      exact Output.isBlank_addText (hm hs) hb
  | @expand content v _ h hl =>
      cases v with
      | none => exact settled_silent m
      | some v =>
          rw [expansion]
          split
          · exact settled_silent m
          · exact settled_of_swallow rfl
  | set h ha hr => exact settled_silent m
  | pushAlign h => exact settled_of_swallow rfl
  | align h ha => exact settled_of_swallow rfl
  | popAlign h ha => exact settled_of_swallow rfl

theorem Settled.steps {items : List Item} (hm : Settled m)
    (h : steps r items m s = (.ok n, t)) : Settled n :=
  steps_preserve r Settled.step hm h

/-! ## The end of a template -/

/-- A line break is swallowed or not, and changes nothing but the machine. -/
theorem newline_result (h : Step r m s .newline n t) :
    n = (if m.swallow then m.swallowNewline else m.newline) ∧ t = s := by
  have hstep := h.execution
  cases hs : m.swallow with
  | true =>
      obtain ⟨rfl, rfl⟩ := ok_inj.mp ((step_newline_of_swallow hs).symm.trans hstep)
      exact ⟨rfl, rfl⟩
  | false =>
      obtain ⟨rfl, rfl⟩ := ok_inj.mp ((step_newline hs).symm.trans hstep)
      exact ⟨rfl, rfl⟩

/-- After a line break of an executed branch a new line is being built. -/
theorem Settled.newline (hm : Settled m) (h : Step r m s .newline n t) (ha : n.active = true) :
    n.output.current = [] ∧ n.output.column = 0 ∧ n.swallow = false := by
  obtain ⟨rfl, -⟩ := newline_result h
  split at ha
  · rename_i hs
    have hb := hm hs
    rw [if_pos hs, swallowNewline, hb]
    exact ⟨rfl, rfl, rfl⟩
  · rename_i hs
    have ham : m.active = true := ha
    rw [if_neg hs, Machine.newline, ham]
    exact ⟨rfl, rfl, rfl⟩

/-- A run without an error has met no fault. -/
theorem tokens_of_steps {items : List Item} (h : steps r items m s = (.ok n, t)) :
    ∃ tokens, items = ofTokens tokens := by
  rcases exists_tokens items with htokens | ⟨tokens, e, unread, rfl⟩
  · exact htokens
  · rw [steps_append, chain_eq_ok] at h
    obtain ⟨k, u, -, h⟩ := h
    simp at h

/-- The last token of a run and the run before it. -/
theorem steps_concat_eq_ok {tokens : List Token} :
    steps r (ofTokens (tokens ++ [token])) m s = (.ok n, t) ↔
      ∃ k u, steps r (ofTokens tokens) m s = (.ok k, u) ∧ Step r k u token n t := by
  simp only [ofTokens, List.map_append, steps_append, chain_eq_ok, List.map_cons, List.map_nil,
    steps_cons_eq_ok, steps_nil, ok_inj]
  constructor
  · rintro ⟨k, u, hfront, n', t', hstep, rfl, rfl⟩
    exact ⟨k, u, hfront, hstep⟩
  · rintro ⟨k, u, hfront, hstep⟩
    exact ⟨k, u, hfront, n, t, hstep, rfl, rfl⟩

theorem newlines_ofTokens (tokens : List Token) :
    newlines (ofTokens tokens) = tokens.count .newline := by
  induction tokens with
  | nil => rfl
  | cons token tokens ih =>
      rw [ofTokens, List.map_cons, newlines_cons, ih, List.count_cons, Nat.add_comm]
      by_cases hn : token = .newline
      · subst hn
        rfl
      · rw [newlines_plain hn, if_neg (by simpa using hn)]

theorem newlines_of_steps {template : Text}
    (h : steps r (items template) m s = (.ok n, t)) :
    newlines (items template) = template.count '\n' + 1 := by
  obtain ⟨tokens, htokens⟩ := tokens_of_steps h
  rw [htokens, newlines_ofTokens]
  exact (items_tokens htokens).1

/-- A template read to its end with every block closed leaves its lines and alignments behind, and
otherwise the machine stands as at the start, below the template. -/
theorem eq_of_steps {template : Text} (h : steps r (items template) .start s = (.ok m, t))
    (hb : m.blocks = []) :
    m = ⟨⟨m.output.lines, [], 0⟩, [], m.alignments, template.count '\n' + 2, false⟩ := by
  have hline : m.line = template.count '\n' + 2 := by
    rw [steps_line r h, newlines_of_steps h]
    change 1 + _ = _
    omega
  obtain ⟨tokens, htokens⟩ := tokens_of_steps h
  obtain ⟨-, front, rfl⟩ := items_tokens htokens
  rw [htokens] at h
  obtain ⟨k, u, hfront, hstep⟩ := steps_concat_eq_ok.mp h
  have hactive : m.active = true := by simp [active, scope, hb]
  obtain ⟨hcurrent, hcolumn, hswallow⟩ := (settled_start.steps hfront).newline hstep hactive
  obtain ⟨⟨lines, current, column⟩, blocks, alignments, line, swallow⟩ := m
  subst hcurrent hcolumn hswallow hline hb
  rfl

/-- An expansion that succeeds has read its template to the end with every block closed. -/
theorem expand_eq_ok {template : Text} {lines : List Text} {s s' : σ}
    (h : expand r template s = (.ok lines, s')) :
    ∃ m, steps r (items template) .start s = (.ok m, s') ∧ m.blocks = [] ∧
      m.output.lines = lines := by
  rw [expand_eq_steps, tokenize_eq, chain_eq_ok] at h
  obtain ⟨m, t, hsteps, hfinish⟩ := h
  obtain ⟨hlines, rfl⟩ := Prod.mk.inj hfinish
  unfold finish at hlines
  split at hlines
  · rename_i hb
    exact ⟨m, hsteps, List.isEmpty_iff.mp hb, Except.ok.inj hlines⟩
  · simp at hlines

end Stencil.Machine
