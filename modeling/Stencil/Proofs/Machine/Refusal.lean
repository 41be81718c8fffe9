import Stencil.Proofs.Machine.Run

/-! How a run fails. A token is refused by the machine, which has errors of its own, or by the
resolver, whose errors are passed on as they are. A run stops at the first token that is refused, or
at a fault of the scanner, and reports the line at which it stands. -/

namespace Stencil

/-- The only fault of a reference is a list of parameters that is not closed. -/
theorem Reference.parse_eq_error {content : Text} {e : TemplateError}
    (h : parse content = .error e) : e = .unclosedParameterList content := by
  unfold parse at h
  split at h
  · simp at h
  · split at h
    · exact (Except.error.inj h).symm
    · simp at h

namespace Machine

/-! ## Refused tokens -/

/-- The token asks for the value that the content refers to. -/
inductive Asks (m : Machine) : Token → Text → Prop where
  | ifThen {key comment} (h : m.active = true) : Asks m (.ifThen key comment) key
  | elseIf {key comment outer} (h : m.blocks = .inactive :: outer) :
      Asks m (.elseIf key comment) key
  | expand {content} (h : m.active = true) : Asks m (.expand content) content

/-- The errors that the machine raises by itself. -/
inductive Objection (m : Machine) : Token → TemplateError → Prop where
  | unmatchedEndif (h : m.blocks = []) : Objection m .endIf .unmatchedEndif
  | misplacedElif {key comment} (h : m.blocks = []) :
      Objection m (.elseIf key comment) .misplacedElif
  | misplacedElse (h : m.blocks = []) : Objection m .otherwise .misplacedElse
  | reference {token content e} (h : Asks m token content)
      (hp : Reference.parse content = .error e) : Objection m token e
  | assignment {text} (h : m.active = true) (ha : Assignment.read? text = none) :
      Objection m (.set text) (.invalidSet text)
  | align (h : m.active = true) (ha : m.alignments = []) :
      Objection m .align (.unbalancedAlignment .align)
  | popAlign (h : m.active = true) (ha : m.alignments = []) :
      Objection m .popAlign (.unbalancedAlignment .pop)

/-- The token is refused by the machine, or the resolver fails. -/
inductive Refusal {σ : Type} (r : Resolver σ) (m : Machine) (s : σ) :
    Token → TemplateError → σ → Prop where
  | own {token e} (h : Objection m token e) : Refusal r m s token e s
  | unanswered {token content reference e s'} (h : Asks m token content)
      (hp : Reference.parse content = .ok reference)
      (hr : r.resolve reference.key reference.params m.output.context s = (.error e, s')) :
      Refusal r m s token e s'
  | unassigned {text a e s'} (h : m.active = true) (ha : Assignment.read? text = some a)
      (hr : r.assign a.name a.value s = (.error e, s')) : Refusal r m s (.set text) e s'

variable {σ : Type} {r : Resolver σ} {m : Machine} {s s' : σ} {token : Token} {e : TemplateError}

theorem andThen_eq_error {α β : Type} {x : Outcome σ α} {f : α → β} :
    andThen x (fun a => .ok (f a)) = (.error e, s') ↔ x = (.error e, s') := by
  obtain ⟨result, t⟩ := x
  cases result with
  | error e' => simp
  | ok a => simp

theorem lookup_eq_error {content : Text} :
    lookup r m content s = (.error e, s') ↔
      Reference.parse content = .error e ∧ s' = s ∨
        ∃ reference, Reference.parse content = .ok reference ∧
          r.resolve reference.key reference.params m.output.context s = (.error e, s') := by
  unfold lookup
  cases Reference.parse content with
  | error e' => simp [eq_comm]
  | ok reference => simp

/-- What refuses a token that asks for a value. -/
theorem Asks.refusal {content : Text} (h : Asks m token content)
    (hl : lookup r m content s = (.error e, s')) : Refusal r m s token e s' := by
  rcases lookup_eq_error.mp hl with ⟨hp, rfl⟩ | ⟨reference, hp, hr⟩
  · exact .own (.reference h hp)
  · exact .unanswered h hp hr

theorem Asks.execution {content : Text} (h : Asks m token content)
    (hl : lookup r m content s = (.error e, s')) : m.step r token s = (.error e, s') := by
  cases h with
  | ifThen h =>
      rw [step_eq_process (by simp) rfl]
      simp [process, Machine.ifThen, h, hl]
  | elseIf h =>
      rw [step_eq_process (by simp) rfl]
      simp [process, Machine.elseIf, h, hl]
  | expand h =>
      rw [step_eq_process (by simp) rfl]
      simp [process, execute, h, hl]

theorem Objection.execution (h : Objection m token e) : m.step r token s = (.error e, s) := by
  cases h with
  | reference h hp => exact h.execution (lookup_eq_error.mpr (.inl ⟨hp, rfl⟩))
  | unmatchedEndif h =>
      rw [step_eq_process (by simp) rfl]
      simp [process, endIf, h]
  | misplacedElif h =>
      rw [step_eq_process (by simp) rfl]
      simp [process, elseIf, h]
  | misplacedElse h =>
      rw [step_eq_process (by simp) rfl]
      simp [process, otherwise, h]
  | assignment h ha =>
      rw [step_eq_process (by simp) rfl]
      simp [process, execute, Machine.set, h, ha]
  | align h ha =>
      rw [step_eq_process (by simp) rfl]
      simp [process, execute, Machine.align, h, ha]
  | popAlign h ha =>
      rw [step_eq_process (by simp) rfl]
      simp [process, execute, Machine.popAlign, h, ha]

theorem Refusal.execution (h : Refusal r m s token e s') : m.step r token s = (.error e, s') := by
  cases h with
  | own h => exact h.execution
  | unanswered h hp hr => exact h.execution (lookup_eq_error.mpr (.inr ⟨_, hp, hr⟩))
  | unassigned h ha hr =>
      rw [step_eq_process (by simp) rfl]
      simp [process, execute, Machine.set, h, ha, hr]

theorem process_refusal (h : m.process r s token = (.error e, s')) : Refusal r m s token e s' := by
  cases token with
  | newline => simp [process] at h
  | ifThen key comment =>
      simp only [process, Machine.ifThen] at h
      split at h
      · rename_i ha
        exact (Asks.ifThen ha).refusal (andThen_eq_error.mp h)
      · simp at h
  | elseIf key comment =>
      simp only [process, Machine.elseIf] at h
      split at h
      · rename_i hb
        obtain ⟨he, rfl⟩ := Prod.mk.inj h
        rw [← Except.error.inj he]
        exact .own (.misplacedElif hb)
      · simp at h
      · rename_i outer hb
        exact (Asks.elseIf hb).refusal (andThen_eq_error.mp h)
      · simp at h
  | otherwise =>
      simp only [process, Machine.otherwise] at h
      obtain ⟨he, rfl⟩ := Prod.mk.inj h
      split at he
      · rename_i hb
        rw [← Except.error.inj he]
        exact .own (.misplacedElse hb)
      all_goals simp at he
  | endIf =>
      simp only [process, Machine.endIf] at h
      obtain ⟨he, rfl⟩ := Prod.mk.inj h
      split at he
      · rename_i hb
        rw [← Except.error.inj he]
        exact .own (.unmatchedEndif hb)
      · simp at he
  | text t =>
      simp only [process, execute] at h
      split at h <;> simp at h
  | expand content =>
      simp only [process, execute] at h
      split at h
      · rename_i ha
        exact (Asks.expand ha).refusal (andThen_eq_error.mp h)
      · simp at h
  | set text =>
      simp only [process, execute, Machine.set] at h
      split at h
      · rename_i ha
        split at h
        · rename_i hread
          obtain ⟨he, rfl⟩ := Prod.mk.inj h
          rw [← Except.error.inj he]
          exact .own (.assignment ha hread)
        · rename_i hread
          exact .unassigned ha hread (andThen_eq_error.mp h)
      · simp at h
  | pushAlign =>
      simp only [process, execute] at h
      split at h <;> simp at h
  | align =>
      simp only [process, execute, Machine.align] at h
      split at h
      · rename_i ha
        obtain ⟨he, rfl⟩ := Prod.mk.inj h
        split at he
        · rename_i hnone
          rw [← Except.error.inj he]
          exact .own (.align ha hnone)
        · simp at he
      · simp at h
  | popAlign =>
      simp only [process, execute, Machine.popAlign] at h
      split at h
      · rename_i ha
        obtain ⟨he, rfl⟩ := Prod.mk.inj h
        split at he
        · rename_i hnone
          rw [← Except.error.inj he]
          exact .own (.popAlign ha hnone)
        · simp at he
      · simp at h

theorem refusal_iff : Refusal r m s token e s' ↔ m.step r token s = (.error e, s') := by
  refine ⟨Refusal.execution, fun h => ?_⟩
  unfold step at h
  split at h
  · simp at h
  · exact process_refusal (andThen_eq_error.mp h)

/-! ## Runs that stop -/

/-- The item ends a run with an error: it is a fault of the scanner, or a token that is refused. -/
inductive Raised (r : Resolver σ) (m : Machine) (s : σ) : Item → TemplateError → σ → Prop where
  | scanned (fault : TemplateError) : Raised r m s (.error fault) fault s
  | refused {token : Token} {source : TemplateError} {t : σ} (h : Refusal r m s token source t) :
      Raised r m s (.ok token) source t

/-- A run that fails has been stopped by an item, at the line that it has reached. -/
theorem steps_eq_error {items : List Item} :
    steps r items m s = (.error e, s') ↔
      ∃ front item rest n t source, items = front ++ item :: rest ∧
        steps r front m s = (.ok n, t) ∧ Raised r n t item source s' ∧
        e = .atLine n.line source := by
  constructor
  · intro h
    induction items generalizing m s with
    | nil => simp at h
    | cons item items ih =>
        cases item with
        | error source =>
            obtain ⟨he, rfl⟩ := Prod.mk.inj h
            exact ⟨[], _, items, m, s, source, rfl, rfl, .scanned source,
              (Except.error.inj he).symm⟩
        | ok token =>
            rw [steps_cons] at h
            cases hs : m.step r token s with
            | mk result t =>
                rw [hs] at h
                cases result with
                | error source =>
                    obtain ⟨he, rfl⟩ := Prod.mk.inj h
                    exact ⟨[], _, items, m, s, source, rfl, rfl, .refused (refusal_iff.mpr hs),
                      (Except.error.inj he).symm⟩
                | ok n =>
                    obtain ⟨front, item, rest, k, u, source, rfl, hfront, hraised, rfl⟩ := ih h
                    refine ⟨.ok token :: front, item, rest, k, u, source, rfl, ?_, hraised, rfl⟩
                    exact (steps_cons_eq_ok r).mpr ⟨n, t, step_relation hs, hfront⟩
  · rintro ⟨front, item, rest, n, t, source, rfl, hfront, hraised, rfl⟩
    rw [steps_append, hfront, chain_ok]
    cases hraised with
    | scanned => rfl
    | refused h => rw [steps_cons, h.execution, located_error, chain_error]

end Machine

end Stencil
