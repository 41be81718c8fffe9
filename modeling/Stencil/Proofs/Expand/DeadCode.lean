import Stencil.Proofs.Resolver.Calls
import Stencil.Proofs.Scan.Lines
import Stencil.Resolver.Map

/-! What stands in a branch that is not executed is not noticed beyond its shape: templates that
differ only there expand alike. -/

namespace Stencil

open Lines

/-- Tokens that are executed only where a branch is. Blank text is not one of them: behind it a line
break that waits to be swallowed goes on waiting. -/
def Token.isAction : Token → Bool
  | text t => !t.allBlank
  | expand _ => true
  | set _ => true
  | pushAlign => true
  | align => true
  | popAlign => true
  | _ => false

namespace Machine

/-- Tokens that are the same but for the comment of a condition, or of the same shape in dead code.
The condition of an ELIF is dead unless its block still waits for a branch, all else unless its own
branch is executed. -/
inductive Alike (m : Machine) : Token → Token → Prop where
  | same (token : Token) : Alike m token token
  | ifComment (key : Text) (comment other : Option Text) :
      Alike m (.ifThen key comment) (.ifThen key other)
  | elseIfComment (key : Text) (comment other : Option Text) :
      Alike m (.elseIf key comment) (.elseIf key other)
  | deadIf {key key' : Text} {comment other : Option Text} (h : m.scope ≠ .active) :
      Alike m (.ifThen key comment) (.ifThen key' other)
  | deadElseIf {key key' : Text} {comment other : Option Text} (h : m.scope ≠ .inactive) :
      Alike m (.elseIf key comment) (.elseIf key' other)
  | deadBlank {t u : Text} (h : m.scope ≠ .active) (ht : t.allBlank = true)
      (hu : u.allBlank = true) : Alike m (.text t) (.text u)
  | deadAction {token other : Token} (h : m.scope ≠ .active) (ht : token.isAction = true)
      (hu : other.isAction = true) : Alike m token other

/-- Every token that the run of a template meets is alike to its counterpart. -/
def Lockstep {σ : Type} (visits : List (Visit σ)) (counterparts : List Token) : Prop :=
  ∀ v other, (v, other) ∈ visits.zip counterparts → Alike v.machine v.token other

variable {σ : Type} {r : Resolver σ} {m : Machine} {s : σ}

/-! ## One step -/

theorem inactive_of_scope (h : m.scope ≠ .active) : m.active = false := decide_eq_false h

theorem isAction_spec {token : Token} (h : token.isAction = true) :
    token.mark? = none ∧ token ≠ .newline ∧ token.isBlankText = false := by
  cases token with
  | text t => simpa [Token.mark?, Token.isBlankText, Token.isAction] using h
  | expand content => simp [Token.mark?, Token.isBlankText]
  | set assignment => simp [Token.mark?, Token.isBlankText]
  | pushAlign => simp [Token.mark?, Token.isBlankText]
  | align => simp [Token.mark?, Token.isBlankText]
  | popAlign => simp [Token.mark?, Token.isBlankText]
  | _ => simp [Token.isAction] at h

/-- A dead action does no more than end the waiting for a line break. -/
theorem step_dead_action {token : Token} (h : m.scope ≠ .active) (ht : token.isAction = true) :
    m.step r token s = (.ok { m with swallow := false }, s) := by
  obtain ⟨hmark, hnewline, hblank⟩ := isAction_spec ht
  rw [step_of_inactive hmark hnewline (inactive_of_scope h), hblank, Bool.and_false]

/-- Without a block to belong to, an ELIF is an error whatever its key. -/
theorem step_alike {token other : Token} (h : Alike m token other) :
    m.step r token s = m.step r other s := by
  cases h with
  | same => rfl
  | ifComment key comment other =>
      rw [step_eq_process (by simp) rfl, step_eq_process (by simp) rfl]
      rfl
  | elseIfComment key comment other =>
      rw [step_eq_process (by simp) rfl, step_eq_process (by simp) rfl]
      rfl
  | deadIf h =>
      rw [step_eq_process (by simp) rfl, step_eq_process (by simp) rfl]
      simp [process, ifThen, inactive_of_scope h]
  | deadElseIf h =>
      rw [step_eq_process (by simp) rfl, step_eq_process (by simp) rfl]
      simp only [process, elseIf]
      cases hb : m.blocks with
      | nil => rfl
      | cons scope outer =>
          cases scope with
          | active => rfl
          | inactive => simp [scope, hb] at h
          | done => rfl
  | deadBlank h ht hu =>
      rw [step_of_inactive rfl (by simp) (inactive_of_scope h),
        step_of_inactive rfl (by simp) (inactive_of_scope h)]
      simp [Token.isBlankText, ht, hu]
  | deadAction h ht hu => rw [step_dead_action h ht, step_dead_action h hu]

/-! ## Two runs -/

theorem lockstep_cons {v : Visit σ} {visits : List (Visit σ)} {other : Token}
    {others : List Token} :
    Lockstep (v :: visits) (other :: others) ↔
      Alike v.machine v.token other ∧ Lockstep visits others := by
  simp [Lockstep, or_imp, forall_and]

/-- A template is in step with itself. -/
theorem lockstep_self (tokens : List Token) :
    Lockstep (visits r (ofTokens tokens) m s) tokens := by
  induction tokens generalizing m s with
  | nil => simp [Lockstep, visits]
  | cons token tokens ih =>
      rw [ofTokens, List.map_cons, visits]
      refine lockstep_cons.mpr ⟨.same token, ?_⟩
      split
      · exact ih
      · simp [Lockstep]

theorem steps_lockstep {tokens others : List Token} (hlength : tokens.length = others.length)
    (h : Lockstep (visits r (ofTokens tokens) m s) others) :
    steps r (ofTokens tokens) m s = steps r (ofTokens others) m s := by
  induction tokens generalizing others m s with
  | nil =>
      obtain rfl : others = [] := List.length_eq_zero_iff.mp hlength.symm
      rfl
  | cons token tokens ih =>
      cases others with
      | nil => simp at hlength
      | cons other others =>
          rw [ofTokens, List.map_cons, visits] at h
          obtain ⟨halike, hrest⟩ := lockstep_cons.mp h
          have hstep : m.step r token s = m.step r other s := step_alike halike
          rw [ofTokens, ofTokens, List.map_cons, List.map_cons, steps_cons, steps_cons, ← hstep]
          cases hs : m.step r token s with
          | mk result t =>
              rw [hs] at hrest
              cases result with
              | error e => rfl
              | ok n => exact ih (by simpa using hlength) hrest

/-- The machine of a visit does not depend on what else the resolver keeps in its state. -/
theorem Lockstep.of_image {τ : Type} {f : τ → σ} {visits : List (Visit τ)}
    {counterparts : List Token} (h : Lockstep (visits.map (Visit.image f)) counterparts) :
    Lockstep visits counterparts := by
  intro v other hv
  refine h (v.image f) other ?_
  rw [List.zip_map_left]
  exact List.mem_map_of_mem hv

end Machine

theorem expand_lockstep {σ : Type} {r : Resolver σ} {template template' : Text} {s : σ}
    {tokens others : List Token} (htemplate : tokenize template = ofTokens tokens)
    (htemplate' : tokenize template' = ofTokens others) (hlength : tokens.length = others.length)
    (h : Machine.Lockstep (Machine.visits r (ofTokens tokens) .start s) others) :
    expand r template s = expand r template' s := by
  rw [Machine.expand_eq_steps, Machine.expand_eq_steps, htemplate, htemplate',
    Machine.steps_lockstep hlength h]

/-- A template may be changed in its dead code, as long as each token keeps its shape: lines or
error, requests with their places, and the state of the resolver stay the same. -/
theorem expand_dead_code {σ : Type} (r : Resolver σ) (template template' : Text) (s : σ)
    {tokens others : List Token} (htemplate : tokenize template = ofTokens tokens)
    (htemplate' : tokenize template' = ofTokens others) (hlength : tokens.length = others.length)
    (h : Machine.Lockstep (Machine.visits r (tokenize template) .start s) others) :
    expand r template s = expand r template' s ∧ calls r template s = calls r template' s := by
  rw [htemplate] at h
  refine ⟨expand_lockstep htemplate htemplate' hlength h, ?_⟩
  have hrecorded : Machine.Lockstep
      (Machine.visits r.recorded (ofTokens tokens) .start ([], s)) others := by
    rw [Machine.visits_covers r.recorded_covers (ofTokens tokens) .start ([], s)] at h
    exact h.of_image
  rw [calls, calls, expand_lockstep htemplate htemplate' hlength hrecorded]

/-- In skipped branches a key nobody knows, an assignment without an equals sign, an alignment that
was never recorded and a list that is not closed. -/
theorem expand_dead_code_skipped :
    let r := Resolver.bindings
    let values : Bindings Value := ⟨[(['n'], .bool false)]⟩
    let template : Text :=
      "[[[IF n]]][[[IF x]]]a[[[SET b]]][[[ENDIF]]][[[ELSE]]]z[[[ENDIF]]]".toList
    let template' : Text :=
      "[[[IF n c]]][[[IF y]]][[[<]]][[[f(]]][[[ENDIF]]][[[ELSE]]]z[[[ENDIF]]]".toList
    expand r template values = (.ok ["z"], values) ∧
      expand r template values = expand r template' values ∧
      calls r template values = calls r template' values := by
  intro r values template template'
  have htemplate : tokenize template = ofTokens [.ifThen ['n'] none, .ifThen ['x'] none,
      .text ['a'], .set ['b'], .endIf, .otherwise, .text ['z'], .endIf, .newline] := by
    rw [tokenize_line rfl]
    rfl
  have htemplate' : tokenize template' = ofTokens [.ifThen ['n'] (some ['c']), .ifThen ['y'] none,
      .popAlign, .expand "f(", .endIf, .otherwise, .text ['z'], .endIf, .newline] := by
    rw [tokenize_line rfl]
    rfl
  have hexpand : expand r template values = (.ok ["z"], values) := by
    rw [expand, htemplate]
    rfl
  refine ⟨hexpand, expand_dead_code r template template' values htemplate htemplate' rfl ?_⟩
  rw [htemplate]
  refine Machine.lockstep_cons.mpr ⟨.ifComment .., ?_⟩
  refine Machine.lockstep_cons.mpr ⟨.deadIf (by decide), ?_⟩
  refine Machine.lockstep_cons.mpr ⟨.deadAction (by decide) rfl rfl, ?_⟩
  refine Machine.lockstep_cons.mpr ⟨.deadAction (by decide) rfl rfl, ?_⟩
  exact Machine.lockstep_self _

end Stencil
