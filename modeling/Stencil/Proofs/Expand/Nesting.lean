import Stencil.Proofs.Machine.Refusal
import Stencil.Proofs.Machine.Settled
import Stencil.Resolver.Map

/-! Errors about blocks depend on the template alone. Values decide which branches are executed and
whether another error comes first, but the number of open blocks is known from the tokens read. -/

namespace Stencil

open Lines

/-- The errors about opening, dividing and closing blocks. -/
inductive TemplateError.Structural : TemplateError → Prop where
  | unmatchedEndif : Structural .unmatchedEndif
  | misplacedElif : Structural .misplacedElif
  | misplacedElse : Structural .misplacedElse
  | danglingIf (count : Nat) : Structural (.danglingIf count)

/-! ## Counting blocks -/

/-- The number of open blocks after a token. What divides or closes a block needs one. -/
def Token.nest : Token → Nat → Except TemplateError Nat
  | ifThen _ _, depth => .ok (depth + 1)
  | elseIf _ _, 0 => .error .misplacedElif
  | otherwise, 0 => .error .misplacedElse
  | endIf, 0 => .error .unmatchedEndif
  | endIf, depth + 1 => .ok depth
  | _, depth => .ok depth

/-- The first error about blocks, or fault of the scanner, in a template that is read from the line
on with a number of blocks open. No value is looked at. -/
def nesting : List Item → Nat → Nat → Except TemplateError Unit
  | [], 0, _ => .ok ()
  | [], depth + 1, line => .error (.atLine (max (line - 1) 1) (.danglingIf (depth + 1)))
  | .error e :: _, _, line => .error (.atLine line e)
  | .ok token :: items, depth, line =>
    match token.nest depth with
    | .ok depth => nesting items depth (line + Machine.newlines [.ok token])
    | .error e => .error (.atLine line e)

namespace Machine

variable {σ : Type} {r : Resolver σ} {m n : Machine} {s t : σ} {token : Token}

theorem nest_turn {mark : Mark} {blocks : List Scope} (h : Turn r m s mark blocks t) :
    mark.token.nest m.blocks.length = .ok blocks.length := by
  cases h with
  | opened h hl => rfl
  | buried h => rfl
  | asked h hl => simp [h, Mark.token, Token.nest]
  | elseIfPast h hs => simp [h, Mark.token, Token.nest]
  | reached h => simp [h, Mark.token, Token.nest]
  | otherwisePast h hs => simp [h, Mark.token, Token.nest]
  | closed h => simp [h, Mark.token, Token.nest]

theorem nest_plain (hp : token.mark? = none) (depth : Nat) : token.nest depth = .ok depth := by
  cases token <;> first | rfl | simp [Token.mark?] at hp

/-- Every step leaves as many blocks open as the token says, whichever branches are executed. -/
theorem nest_step (h : Step r m s token n t) :
    token.nest m.blocks.length = .ok n.blocks.length := by
  cases h with
  | mark h => exact nest_turn h
  | passed hp hn h => exact nest_plain hp _
  | expand h hl =>
      rw [(expansion_frame m _).1]
      rfl
  | _ => rfl

theorem nesting_steps {items : List Item} (rest : List Item)
    (h : steps r items m s = (.ok n, t)) :
    nesting (items ++ rest) m.blocks.length m.line = nesting rest n.blocks.length n.line := by
  induction items generalizing m s with
  | nil =>
      obtain ⟨rfl, rfl⟩ := ok_inj.mp h
      rfl
  | cons item items ih =>
      cases item with
      | error e => simp at h
      | ok token =>
          obtain ⟨k, u, hs, h⟩ := (steps_cons_eq_ok r).mp h
          rw [← ih h, step_line r hs, List.cons_append, nesting, nest_step hs]

/-- An error about blocks that the machine raises is known from the number of open blocks. -/
theorem Objection.nest {e : TemplateError} (h : Objection m token e) (he : e.Structural) :
    token.nest m.blocks.length = .error e := by
  cases h with
  | unmatchedEndif h => simp [h, Token.nest]
  | misplacedElif h => simp [h, Token.nest]
  | misplacedElse h => simp [h, Token.nest]
  | reference h hp =>
      obtain rfl := Reference.parse_eq_error hp
      cases he
  | assignment h ha => cases he
  | align h ha => cases he
  | popAlign h ha => cases he

theorem nesting_finish (m : Machine) :
    nesting [] m.blocks.length m.line = m.finish.map fun _ => () := by
  unfold finish
  cases m.blocks with
  | nil => rfl
  | cons scope outer => rfl

end Machine

/-! ## Two runs -/

/-- The run succeeds, or fails with an error about blocks that the machine itself raises. -/
inductive SelfEnded {σ : Type} (r : Resolver σ) (template : Text) (s : σ) : Prop where
  | success {lines : List Text} (h : (expand r template s).1 = .ok lines)
  | objected {front rest : List Item} {token : Token} {m : Machine} {t : σ} {e : TemplateError}
      (hitems : tokenize template = front ++ .ok token :: rest)
      (hfront : Machine.steps r front .start s = (.ok m, t))
      (h : Machine.Objection m token e) (he : e.Structural)
  | dangling {m : Machine} {t : σ}
      (h : Machine.steps r (tokenize template) .start s = (.ok m, t)) (hb : m.blocks ≠ [])

section

variable {σ : Type} {r : Resolver σ} {template : Text} {s : σ}

theorem expand_of_steps {m : Machine} {t : σ}
    (h : Machine.steps r (tokenize template) .start s = (.ok m, t)) :
    expand r template s = (m.finish, t) := by
  rw [Machine.expand_eq_steps, h, Machine.chain_ok]

/-- Reading a template to its end shows the errors about blocks that counting shows. -/
theorem nesting_of_steps {m : Machine} {t : σ}
    (h : Machine.steps r (tokenize template) .start s = (.ok m, t)) :
    nesting (tokenize template) 0 1 = (expand r template s).1.map fun _ => () := by
  have hcount := Machine.nesting_steps [] h
  rw [List.append_nil, Machine.nesting_finish] at hcount
  rw [expand_of_steps h]
  exact hcount

theorem expand_objected {front rest : List Item} {token : Token} {m : Machine} {t : σ}
    {e : TemplateError} (hitems : tokenize template = front ++ .ok token :: rest)
    (hfront : Machine.steps r front .start s = (.ok m, t)) (h : Machine.Objection m token e) :
    expand r template s = (.error (.atLine m.line e), t) := by
  have hsteps := Machine.steps_eq_error.mpr
    ⟨_, _, _, _, _, _, hitems, hfront, .refused (.own h), rfl⟩
  rw [Machine.expand_eq_steps, hsteps, Machine.chain_error]

/-- Such a run ends as counting the blocks of the template says. -/
theorem SelfEnded.nesting (h : SelfEnded r template s) :
    nesting (tokenize template) 0 1 = (expand r template s).1.map fun _ => () := by
  cases h with
  | @success lines h =>
      obtain ⟨m, hsteps, -⟩ := Machine.expand_eq_ok (Prod.ext h rfl)
      rw [← tokenize_eq] at hsteps
      exact nesting_of_steps hsteps
  | dangling h hb => exact nesting_of_steps h
  | @objected front rest token m t e hitems hfront h he =>
      have hcount := Machine.nesting_steps (.ok token :: rest) hfront
      rw [← hitems, Stencil.nesting, h.nest he] at hcount
      rw [expand_objected hitems hfront h]
      exact hcount

theorem SelfEnded.structural (h : SelfEnded r template s) {e : TemplateError}
    (he : (expand r template s).1 = .error e) :
    ∃ line source, e = .atLine line source ∧ source.Structural := by
  cases h with
  | success h => simp [h] at he
  | dangling h hb =>
      rw [expand_of_steps h] at he
      unfold Machine.finish at he
      split at he
      · simp at he
      · exact ⟨_, _, (Except.error.inj he).symm, .danglingIf _⟩
  | objected hitems hfront h hs =>
      rw [expand_objected hitems hfront h] at he
      exact ⟨_, _, (Except.error.inj he).symm, hs⟩

/-- No value leads past a fault of the scanner to the end of the template. -/
theorem expand_faulty {fault : TemplateError} (h : .error fault ∈ tokenize template)
    (r : Resolver σ) (s : σ) : ∃ e, (expand r template s).1 = .error e := by
  rcases hexpand : expand r template s with ⟨result, t⟩
  cases result with
  | error e => exact ⟨e, rfl⟩
  | ok lines =>
      obtain ⟨m, hsteps, -⟩ := Machine.expand_eq_ok hexpand
      obtain ⟨tokens, hitems⟩ := Machine.tokens_of_steps hsteps
      rw [tokenize_eq, hitems] at h
      exact (error_not_mem_ofTokens h).elim

end

/-- Errors about the structure of a template do not depend on values. A template with a fault is
never expanded, wherever the fault stands; and of two runs that succeed or fail with an error about
blocks of their own, both succeed, or both fail with the same error, the same number of open blocks
and the same line. -/
theorem expand_structure (template : Text) :
    (∀ fault, .error fault ∈ tokenize template → ∀ {σ : Type} (r : Resolver σ) (s : σ),
      ∃ e, (expand r template s).1 = .error e) ∧
    ∀ {σ τ : Type} (r : Resolver σ) (q : Resolver τ) (s : σ) (t : τ),
      SelfEnded r template s → SelfEnded q template t →
      (∃ lines lines', (expand r template s).1 = .ok lines ∧ (expand q template t).1 = .ok lines') ∨
        ∃ line source, source.Structural ∧
          (expand r template s).1 = .error (.atLine line source) ∧
          (expand q template t).1 = .error (.atLine line source) := by
  refine ⟨fun fault h {_} r s => expand_faulty h r s, ?_⟩
  intro σ τ r q s t hr hq
  have heq := hr.nesting.symm.trans hq.nesting
  cases hfirst : (expand r template s).1 with
  | ok lines =>
      cases hsecond : (expand q template t).1 with
      | ok lines' => exact .inl ⟨lines, lines', rfl, rfl⟩
      | error e => simp [hfirst, hsecond, Except.map] at heq
  | error e =>
      obtain ⟨line, source, rfl, hs⟩ := hr.structural hfirst
      cases hsecond : (expand q template t).1 with
      | ok lines => simp [hfirst, hsecond, Except.map] at heq
      | error e' =>
          obtain rfl : TemplateError.atLine line source = e' := by
            simpa [hfirst, hsecond, Except.map] using heq
          exact .inr ⟨line, source, hs, rfl, rfl⟩

/-- The same block is left open whether the first condition holds or not, in which case the second
one, of a key nobody knows, is not asked for. The fault stands in a branch that is skipped. -/
theorem expand_structure_dangling :
    let template : Text := "[[[IF a]]][[[IF b]]]\n[[[ENDIF]]]x".toList
    let faulty : Text := "[[[IF a]]]\n[[[".toList
    let on : Bindings Value := ⟨[(['a'], .bool true), (['b'], .bool true)]⟩
    let off : Bindings Value := ⟨[(['a'], .bool false)]⟩
    .error (.malformed .unclosed) ∈ tokenize faulty ∧
      (∃ e, (expand .bindings faulty off).1 = .error e) ∧
      SelfEnded .bindings template on ∧ SelfEnded .bindings template off ∧
      (expand .bindings template on).1 = .error (.atLine 2 (.danglingIf 1)) ∧
      (expand .bindings template off).1 = .error (.atLine 2 (.danglingIf 1)) := by
  intro template faulty on off
  have hline : Scan.line (.outside []) template =
      (ofTokens [.ifThen ['a'] none, .ifThen ['b'] none, .newline], some "[[[ENDIF]]]x".toList) :=
    rfl
  have hlast : Scan.line (.outside []) "[[[ENDIF]]]x".toList =
      (ofTokens [.endIf, .text ['x'], .newline], none) := rfl
  have hfault : .error (.malformed .unclosed) ∈ tokenize faulty := by
    have hopen : Scan.line (.outside []) faulty =
        (ofTokens [.ifThen ['a'] none, .newline], some Token.opening) := rfl
    have hunclosed : Scan.line (.outside []) Token.opening =
        ([.error (.malformed .unclosed)], none) := rfl
    rw [tokenize_lines hopen, tokenize_line hunclosed]
    simp
  have hon : Machine.steps .bindings (tokenize template) .start on =
      (.ok ⟨⟨[['x']], [], 0⟩, [.active], [], 3, false⟩, on) := by
    rw [tokenize_lines hline, tokenize_line hlast]
    rfl
  have hoff : Machine.steps .bindings (tokenize template) .start off =
      (.ok ⟨⟨[], [], 0⟩, [.inactive], [], 3, false⟩, off) := by
    rw [tokenize_lines hline, tokenize_line hlast]
    rfl
  have hfirst : SelfEnded .bindings template on := .dangling hon (by simp)
  have hsecond : SelfEnded .bindings template off := .dangling hoff (by simp)
  have hexpand : (expand .bindings template on).1 = .error (.atLine 2 (.danglingIf 1)) := by
    rw [expand_of_steps hon]
    rfl
  have hsame : (expand .bindings template off).1 = .error (.atLine 2 (.danglingIf 1)) := by
    rcases (expand_structure template).2 .bindings .bindings on off hfirst hsecond with
      ⟨lines, -, h, -⟩ | ⟨line, source, -, h, h'⟩
    · simp [hexpand] at h
    · rw [h', ← h, hexpand]
  exact ⟨hfault, (expand_structure faulty).1 _ hfault .bindings off, hfirst, hsecond, hexpand, hsame⟩

end Stencil
