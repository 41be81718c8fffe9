import Stencil.Template.Machine

/-! One step of the machine as a relation, with one rule for each thing a token can do. -/

namespace Stencil

/-- The directives that open, divide and close a block. -/
inductive Mark where
  | ifThen (key : Text) (comment : Option Text)
  | elseIf (key : Text) (comment : Option Text)
  | otherwise
  | endIf
  deriving DecidableEq

def Mark.token : Mark → Token
  | ifThen key comment => .ifThen key comment
  | elseIf key comment => .elseIf key comment
  | otherwise => .otherwise
  | endIf => .endIf

/-- The mark that a token is, unless it is plain. -/
def Token.mark? : Token → Option Mark
  | ifThen key comment => some (.ifThen key comment)
  | elseIf key comment => some (.elseIf key comment)
  | otherwise => some .otherwise
  | endIf => some .endIf
  | _ => none

theorem Token.mark?_eq_some_iff {token : Token} {mark : Mark} :
    token.mark? = some mark ↔ token = mark.token := by
  constructor
  · intro h
    cases token <;> simp only [mark?, Option.some.injEq, reduceCtorEq] at h
    all_goals
      subst h
      rfl
  · rintro rfl
    cases mark <;> rfl

namespace Machine

variable {σ : Type} {r : Resolver σ} {m : Machine} {s : σ}

/-! ## Outcomes -/

@[simp] theorem andThen_ok {α β : Type} (a : α) (s : σ) (f : α → Except TemplateError β) :
    andThen (.ok a, s) f = (f a, s) := rfl

@[simp] theorem andThen_error {α β : Type} (e : TemplateError) (s : σ)
    (f : α → Except TemplateError β) : andThen (.error e, s) f = (.error e, s) := rfl

theorem andThen_pure {α : Type} (x : Outcome σ α) : andThen x .ok = x := by
  obtain ⟨result, s⟩ := x
  cases result with
  | error e => rfl
  | ok a => rfl

theorem ok_inj {α : Type} {a b : α} {s t : σ} :
    ((.ok a, s) : Outcome σ α) = (.ok b, t) ↔ a = b ∧ s = t := by
  simp

theorem andThen_eq_ok {α β : Type} {x : Outcome σ α} {f : α → Except TemplateError β} {b : β}
    {t : σ} : andThen x f = (.ok b, t) ↔ ∃ a, x = (.ok a, t) ∧ f a = .ok b := by
  obtain ⟨result, s⟩ := x
  cases result with
  | error e => simp
  | ok a =>
      simp only [andThen_ok, Prod.mk.injEq, Except.ok.injEq]
      constructor
      · rintro ⟨hb, rfl⟩
        exact ⟨a, ⟨rfl, rfl⟩, hb⟩
      · rintro ⟨a, ⟨rfl, rfl⟩, hb⟩
        exact ⟨hb, rfl⟩

@[simp] theorem withBlocks_self (m : Machine) : m.withBlocks m.blocks = m := rfl

/-! ## Tokens apart from the waiting line break -/

/-- Directives have no part in the swallowing of a line break. -/
theorem step_eq_process {token : Token} (hn : token ≠ .newline) (hb : token.isBlankText = false) :
    m.step r token s = m.process r s token := by
  have hne : (token == Token.newline) = false := by simpa using hn
  simp only [step, hne, hb, Bool.and_false, Bool.or_false, Bool.false_eq_true, if_false]
  exact andThen_pure _

theorem step_of_not_swallowed {token : Token} (h : (m.swallow && token == .newline) = false) :
    m.step r token s = andThen (m.process r s token) fun after =>
      .ok { after with swallow := after.swallow || (m.swallow && token.isBlankText) } := by
  rw [step, h]
  rfl

theorem step_newline_of_swallow (h : m.swallow = true) :
    m.step r .newline s = (.ok m.swallowNewline, s) := by
  simp [step, h]

theorem step_newline (h : m.swallow = false) : m.step r .newline s = (.ok m.newline, s) := by
  simp [step, h, process, newline]

/-- Plain tokens are executed where a branch is. -/
theorem process_of_active {token : Token} (hp : token.mark? = none) (hn : token ≠ .newline)
    (h : m.active = true) : m.process r s token = m.execute r s token := by
  cases token <;> simp_all [Token.mark?, process]

theorem process_of_inactive {token : Token} (hp : token.mark? = none) (hn : token ≠ .newline)
    (h : m.active = false) : m.process r s token = (.ok { m with swallow := false }, s) := by
  cases token <;> simp_all [Token.mark?, process]

theorem step_text_of_active (t : Text) (h : m.active = true) :
    m.step r (.text t) s =
      (.ok { m.withOutput (m.output.addText t) with swallow := m.swallow && t.allBlank }, s) := by
  simp [step, process, h, execute, withOutput, Token.isBlankText]

/-- In a branch that is not executed only the waiting line break is minded. -/
theorem step_of_inactive {token : Token} (hp : token.mark? = none) (hn : token ≠ .newline)
    (h : m.active = false) :
    m.step r token s = (.ok { m with swallow := m.swallow && token.isBlankText }, s) := by
  have hne : (token == Token.newline) = false := by simpa using hn
  rw [step_of_not_swallowed (by simp [hne]), process_of_inactive hp hn h]
  simp

/-- A value is written to the output alone. -/
theorem expansion_frame (m : Machine) (v : Option Value) :
    (m.expansion v).blocks = m.blocks ∧ (m.expansion v).alignments = m.alignments ∧
      (m.expansion v).line = m.line := by
  cases v with
  | none => exact ⟨rfl, rfl, rfl⟩
  | some v =>
      rw [expansion]
      split
      · exact ⟨rfl, rfl, rfl⟩
      · exact ⟨rfl, rfl, rfl⟩

/-! ## The relation -/

/-- What a mark makes of the open blocks. Only a condition that may still open a branch is asked
for. -/
inductive Turn (r : Resolver σ) (m : Machine) (s : σ) : Mark → List Scope → σ → Prop where
  | opened {key comment v s'} (h : m.active = true) (hl : lookup r m key s = (.ok v, s')) :
      Turn r m s (.ifThen key comment) (decided v :: m.blocks) s'
  | buried {key comment} (h : m.active = false) :
      Turn r m s (.ifThen key comment) (.done :: m.blocks) s
  | asked {key comment outer v s'} (h : m.blocks = .inactive :: outer)
      (hl : lookup r m key s = (.ok v, s')) :
      Turn r m s (.elseIf key comment) (decided v :: outer) s'
  | elseIfPast {key comment scope outer} (h : m.blocks = scope :: outer)
      (hs : scope ≠ .inactive) : Turn r m s (.elseIf key comment) (.done :: outer) s
  | reached {outer} (h : m.blocks = .inactive :: outer) :
      Turn r m s .otherwise (.active :: outer) s
  | otherwisePast {scope outer} (h : m.blocks = scope :: outer) (hs : scope ≠ .inactive) :
      Turn r m s .otherwise (.done :: outer) s
  | closed {scope outer} (h : m.blocks = scope :: outer) : Turn r m s .endIf outer s

/-- What a token makes of the machine and of the state of the resolver. -/
inductive Step (r : Resolver σ) (m : Machine) (s : σ) : Token → Machine → σ → Prop where
  | swallowed (h : m.swallow = true) : Step r m s .newline m.swallowNewline s
  | newline (h : m.swallow = false) : Step r m s .newline m.newline s
  | mark {mark blocks s'} (h : Turn r m s mark blocks s') :
      Step r m s mark.token (m.withBlocks blocks).silent s'
  | passed {token} (hp : token.mark? = none) (hn : token ≠ .newline) (h : m.active = false) :
      Step r m s token { m with swallow := m.swallow && token.isBlankText } s
  | text {t} (h : m.active = true) :
      Step r m s (.text t)
        { m.withOutput (m.output.addText t) with swallow := m.swallow && t.allBlank } s
  | expand {content v s'} (h : m.active = true) (hl : lookup r m content s = (.ok v, s')) :
      Step r m s (.expand content) (m.expansion v) s'
  | set {text a s'} (h : m.active = true) (ha : Assignment.read? text = some a)
      (hr : r.assign a.name a.value s = (.ok (), s')) : Step r m s (.set text) m.silent s'
  | pushAlign (h : m.active = true) :
      Step r m s .pushAlign (m.withAlignments (m.output.alignment :: m.alignments)) s
  | align {innermost outer} (h : m.active = true) (ha : m.alignments = innermost :: outer) :
      Step r m s .align (m.withOutput (m.output.padTo innermost)) s
  | popAlign {innermost outer} (h : m.active = true) (ha : m.alignments = innermost :: outer) :
      Step r m s .popAlign (m.withAlignments outer) s

theorem Turn.execution {mark : Mark} {blocks : List Scope} {s' : σ}
    (h : Turn r m s mark blocks s') :
    m.step r mark.token s = (.ok (m.withBlocks blocks).silent, s') := by
  rw [step_eq_process (by cases mark <;> simp [Mark.token]) (by cases mark <;> rfl)]
  cases h with
  | opened h hl => simp [Mark.token, process, ifThen, h, hl]
  | buried h => simp [Mark.token, process, ifThen, h]
  | asked h hl => simp [Mark.token, process, elseIf, h, hl]
  | @elseIfPast _ _ scope _ h hs =>
      cases scope with
      | active => simp [Mark.token, process, elseIf, h]
      | inactive => exact (hs rfl).elim
      | done =>
          simp only [Mark.token, process, elseIf, h]
          rw [← h, withBlocks_self]
  | reached h => simp [Mark.token, process, otherwise, h]
  | @otherwisePast scope _ h hs =>
      cases scope with
      | active => simp [Mark.token, process, otherwise, h]
      | inactive => exact (hs rfl).elim
      | done =>
          simp only [Mark.token, process, otherwise, h]
          rw [← h, withBlocks_self]
  | closed h => simp [Mark.token, process, endIf, h]

theorem Step.execution {token : Token} {m' : Machine} {s' : σ} (h : Step r m s token m' s') :
    m.step r token s = (.ok m', s') := by
  cases h with
  | swallowed h => exact step_newline_of_swallow h
  | newline h => exact step_newline h
  | mark h => exact h.execution
  | passed hp hn h => exact step_of_inactive hp hn h
  | text h => exact step_text_of_active _ h
  | expand h hl =>
      rw [step_eq_process (by simp) rfl]
      simp [process, h, execute, hl]
  | set h ha hr =>
      rw [step_eq_process (by simp) rfl]
      simp [process, h, execute, Machine.set, ha, hr]
  | pushAlign h =>
      rw [step_eq_process (by simp) rfl]
      simp [process, h, execute]
  | align h ha =>
      rw [step_eq_process (by simp) rfl]
      simp [process, h, execute, Machine.align, ha]
  | popAlign h ha =>
      rw [step_eq_process (by simp) rfl]
      simp [process, h, execute, Machine.popAlign, ha]

theorem turn_of_step {mark : Mark} {m' : Machine} {s' : σ}
    (h : m.step r mark.token s = (.ok m', s')) :
    ∃ blocks, Turn r m s mark blocks s' ∧ m' = (m.withBlocks blocks).silent := by
  rw [step_eq_process (by cases mark <;> simp [Mark.token]) (by cases mark <;> rfl)] at h
  cases mark with
  | ifThen key comment =>
      simp only [Mark.token, process, ifThen] at h
      split at h
      · obtain ⟨v, hl, hm⟩ := andThen_eq_ok.mp h
        exact ⟨_, .opened ‹_› hl, (Except.ok.inj hm).symm⟩
      · rename_i ha
        obtain ⟨hm, rfl⟩ := Prod.mk.inj h
        exact ⟨_, .buried (by simpa using ha), (Except.ok.inj hm).symm⟩
  | elseIf key comment =>
      simp only [Mark.token, process, elseIf] at h
      split at h
      · simp at h
      · obtain ⟨hm, rfl⟩ := Prod.mk.inj h
        exact ⟨_, .elseIfPast ‹_› (by simp), (Except.ok.inj hm).symm⟩
      · obtain ⟨v, hl, hm⟩ := andThen_eq_ok.mp h
        exact ⟨_, .asked ‹_› hl, (Except.ok.inj hm).symm⟩
      · rename_i hb
        obtain ⟨hm, rfl⟩ := Prod.mk.inj h
        refine ⟨_, .elseIfPast hb (by simp), ?_⟩
        rw [← Except.ok.inj hm, ← hb, withBlocks_self]
  | otherwise =>
      simp only [Mark.token, process, otherwise] at h
      obtain ⟨hm, rfl⟩ := Prod.mk.inj h
      split at hm
      · simp at hm
      · exact ⟨_, .otherwisePast ‹_› (by simp), (Except.ok.inj hm).symm⟩
      · exact ⟨_, .reached ‹_›, (Except.ok.inj hm).symm⟩
      · rename_i hb
        refine ⟨_, .otherwisePast hb (by simp), ?_⟩
        rw [← Except.ok.inj hm, ← hb, withBlocks_self]
  | endIf =>
      simp only [Mark.token, process, endIf] at h
      obtain ⟨hm, rfl⟩ := Prod.mk.inj h
      split at hm
      · simp at hm
      · exact ⟨_, .closed ‹_›, (Except.ok.inj hm).symm⟩

/-- Inversion for the tokens that are executed only where a branch is. -/
theorem execute_relation {token : Token} {m' : Machine} {s' : σ} (hp : token.mark? = none)
    (hn : token ≠ .newline) (ha : m.active = true) (h : m.step r token s = (.ok m', s')) :
    Step r m s token m' s' := by
  cases token with
  | text t =>
      obtain ⟨rfl, rfl⟩ := ok_inj.mp ((step_text_of_active t ha).symm.trans h)
      exact .text ha
  | newline => exact (hn rfl).elim
  | ifThen key comment => simp [Token.mark?] at hp
  | elseIf key comment => simp [Token.mark?] at hp
  | otherwise => simp [Token.mark?] at hp
  | endIf => simp [Token.mark?] at hp
  | set text =>
      rw [step_eq_process hn rfl] at h
      simp only [process, ha, if_true, execute, Machine.set] at h
      split at h
      · simp at h
      · obtain ⟨u, hr, hm⟩ := andThen_eq_ok.mp h
        rw [← Except.ok.inj hm]
        exact .set ha ‹_› hr
  | expand content =>
      rw [step_eq_process hn rfl] at h
      simp only [process, ha, if_true, execute] at h
      obtain ⟨v, hl, hm⟩ := andThen_eq_ok.mp h
      rw [← Except.ok.inj hm]
      exact .expand ha hl
  | pushAlign =>
      rw [step_eq_process hn rfl] at h
      simp only [process, ha, if_true, execute] at h
      obtain ⟨rfl, rfl⟩ := ok_inj.mp h
      exact .pushAlign ha
  | align =>
      rw [step_eq_process hn rfl] at h
      simp only [process, ha, if_true, execute, Machine.align] at h
      obtain ⟨hm, rfl⟩ := Prod.mk.inj h
      split at hm
      · simp at hm
      · rw [← Except.ok.inj hm]
        exact .align ha ‹_›
  | popAlign =>
      rw [step_eq_process hn rfl] at h
      simp only [process, ha, if_true, execute, Machine.popAlign] at h
      obtain ⟨hm, rfl⟩ := Prod.mk.inj h
      split at hm
      · simp at hm
      · rw [← Except.ok.inj hm]
        exact .popAlign ha ‹_›

/-- Inversion: an executed step is one of the rules. -/
theorem step_relation {token : Token} {m' : Machine} {s' : σ}
    (h : m.step r token s = (.ok m', s')) : Step r m s token m' s' := by
  cases hmark : token.mark? with
  | some mark =>
      obtain rfl := Token.mark?_eq_some_iff.mp hmark
      obtain ⟨blocks, ht, rfl⟩ := turn_of_step h
      exact .mark ht
  | none =>
      by_cases hn : token = .newline
      · subst hn
        cases hs : m.swallow with
        | true =>
            obtain ⟨rfl, rfl⟩ := ok_inj.mp ((step_newline_of_swallow hs).symm.trans h)
            exact .swallowed hs
        | false =>
            obtain ⟨rfl, rfl⟩ := ok_inj.mp ((step_newline hs).symm.trans h)
            exact .newline hs
      cases ha : m.active with
      | false =>
          obtain ⟨rfl, rfl⟩ := ok_inj.mp ((step_of_inactive hmark hn ha).symm.trans h)
          exact .passed hmark hn ha
      | true => exact execute_relation hmark hn ha h

theorem step_iff {token : Token} {m' : Machine} {s' : σ} :
    Step r m s token m' s' ↔ m.step r token s = (.ok m', s') :=
  ⟨Step.execution, step_relation⟩

end Machine

end Stencil
