import Stencil.Proofs.Blocks.Evaluation
import Stencil.Proofs.Resolver.Recorded

/-! The machine with its stack of open blocks does what the evaluation of nested blocks does. Under
a stack whose innermost block is being executed a body is executed, and under any other it is
skipped; either way the stack is the same after it. -/

namespace Stencil.Blocks

open Machine

variable {σ : Type} (r : Resolver σ)

/-! ## Machines under a stack -/

/-- Under these open blocks tokens are executed. -/
def Live (blocks : List Scope) : Prop := blocks.headD .active = .active

theorem active_withBlocks {blocks : List Scope} {m : Machine} (h : Live blocks) :
    (m.withBlocks blocks).active = true := by
  simpa [active, scope, withBlocks, Live] using h

theorem inactive_withBlocks {blocks : List Scope} {m : Machine} (h : ¬ Live blocks) :
    (m.withBlocks blocks).active = false := by
  simpa [active, scope, withBlocks, Live] using h

theorem live_nil : Live [] := rfl

theorem live_active (blocks : List Scope) : Live (.active :: blocks) := rfl

theorem not_live_done (blocks : List Scope) : ¬ Live (.done :: blocks) := by simp [Live]

theorem not_live_inactive (blocks : List Scope) : ¬ Live (.inactive :: blocks) := by simp [Live]

theorem execute_withBlocks (m : Machine) (blocks : List Scope) (token : Token) (s : σ) :
    (m.withBlocks blocks).execute r s token =
      mapOk (·.withBlocks blocks) (m.execute r s token) := by
  cases token with
  | expand content =>
      simp only [execute]
      change andThen (lookup r m content s) _ = _
      rcases lookup r m content s with ⟨result, t⟩
      cases result with
      | error e => rfl
      | ok v =>
          cases v with
          | none => rfl
          | some v =>
              simp only [andThen_ok, mapOk_ok, expansion]
              split <;> rfl
  | set text =>
      simp only [execute, Machine.set]
      split
      · rfl
      · rename_i a _
        rcases r.assign a.name a.value s with ⟨result, t⟩
        cases result <;> rfl
  | align =>
      simp only [execute, Machine.align, withBlocks]
      split <;> rfl
  | popAlign =>
      simp only [execute, Machine.popAlign, withBlocks]
      split <;> rfl
  | _ => rfl

theorem perform_withBlocks (m : Machine) (blocks : List Scope) (token : Token) (s : σ) :
    (m.withBlocks blocks).perform r token s =
      mapOk (·.withBlocks blocks) (m.perform r token s) := by
  unfold perform
  split
  · change (if m.swallow then _ else _) = _
    split
    · simp only [swallowNewline, withBlocks]
      rfl
    · rfl
  · rw [execute_withBlocks]
    rcases m.execute r s token with ⟨result, t⟩
    cases result <;> rfl

theorem overlook_withBlocks (m : Machine) (blocks : List Scope) (token : Token) :
    (m.withBlocks blocks).overlook token = (m.overlook token).withBlocks blocks := by
  unfold overlook
  split
  · change (if m.swallow then _ else _) = _
    split <;> rfl
  · rfl

theorem step_eq_perform {m : Machine} {token : Token} (s : σ) (hp : token.mark? = none)
    (ha : m.active = true) : m.step r token s = m.perform r token s := by
  unfold perform
  split
  · rename_i hn
    subst hn
    cases hs : m.swallow with
    | true => exact step_newline_of_swallow hs
    | false =>
        rw [step_newline hs, Machine.newline, ha]
        rfl
  · rename_i hn
    have hne : (token == Token.newline) = false := by simpa using hn
    rw [step_of_not_swallowed (by simp [hne]), process_of_active hp hn ha]

theorem step_eq_overlook {m : Machine} {token : Token} (s : σ) (hp : token.mark? = none)
    (ha : m.active = false) : m.step r token s = (.ok (m.overlook token), s) := by
  unfold overlook
  split
  · rename_i hn
    subst hn
    cases hs : m.swallow with
    | true => exact step_newline_of_swallow hs
    | false =>
        rw [step_newline hs, Machine.newline, ha]
        rfl
  · rename_i hn
    exact step_of_inactive hp hn ha

/-! ## Steps over marks -/

/-- The state of a block whose condition has been asked for. -/
def verdict (holds : Bool) : Scope := if holds then .active else .inactive

/-- A condition is asked for, and its verdict becomes the state of the block. -/
theorem located_decided (blocks : List Scope) (key : Text) (m : Machine) (s : σ) :
    located m.line
        (andThen (lookup r m key s) fun v => .ok (m.withBlocks (decided v :: blocks)).silent) =
      mapOk (fun holds => m.silent.withBlocks (verdict holds :: blocks)) (ask r m key s) := by
  rw [ask, ← located_mapOk]
  rcases lookup r m key s with ⟨result, t⟩
  cases result <;> rfl

theorem step_opened {blocks : List Scope} (h : Live blocks) (key : Text) (comment : Option Text)
    (m : Machine) (s : σ) :
    located (m.withBlocks blocks).line ((m.withBlocks blocks).step r (.ifThen key comment) s) =
      mapOk (fun holds => m.silent.withBlocks (verdict holds :: blocks)) (ask r m key s) := by
  rw [step_eq_process (by simp) rfl, process, Machine.ifThen, active_withBlocks h, if_pos rfl]
  exact located_decided r blocks key m s

theorem step_asked (blocks : List Scope) (key : Text) (comment : Option Text) (m : Machine)
    (s : σ) :
    located (m.withBlocks (.inactive :: blocks)).line
        ((m.withBlocks (.inactive :: blocks)).step r (.elseIf key comment) s) =
      mapOk (fun holds => m.silent.withBlocks (verdict holds :: blocks)) (ask r m key s) := by
  rw [step_eq_process (by simp) rfl, process, Machine.elseIf]
  exact located_decided r blocks key m s

/-- A mark that asks for nothing. -/
theorem steps_turn {mark : Mark} {blocks blocks' : List Scope} {m : Machine} {s : σ}
    (h : Turn r (m.withBlocks blocks) s mark blocks' s) (items : List Item) :
    steps r (.ok mark.token :: items) (m.withBlocks blocks) s =
      steps r items (m.silent.withBlocks blocks') s := by
  rw [steps_cons, h.execution]
  rfl

theorem run_turn {mark : Mark} {blocks blocks' : List Scope} {m : Machine} {s : σ}
    (h : Turn r (m.withBlocks blocks) s mark blocks' s) (items : List Item) :
    run r (.ok mark.token :: items) (m.withBlocks blocks) s =
      run r items (m.silent.withBlocks blocks') s := by
  rw [run_cons, h.execution]
  rfl

/-! ## Closed blocks -/

mutual

theorem Body.steps_skip (body : Body) {blocks : List Scope} (h : ¬ Live blocks) (m : Machine)
    (s : σ) :
    steps r body.items (m.withBlocks blocks) s = (.ok ((body.skip m).withBlocks blocks), s) := by
  cases body with
  | nil => rfl
  | plain token rest =>
      rw [Body.items, steps_cons, step_eq_overlook r s token.property (inactive_withBlocks h),
        overlook_withBlocks]
      exact rest.steps_skip h _ s
  | block key comment first arms rest =>
      have hturn : Turn r (m.withBlocks blocks) s (.ifThen key comment) (.done :: blocks) s :=
        .buried (inactive_withBlocks h)
      rw [Body.items]
      refine (steps_turn r hturn _).trans ?_
      rw [steps_append, first.steps_skip (not_live_done _), chain_ok, steps_append,
        arms.steps_skip (by simp), chain_ok]
      exact rest.steps_skip h _ s

theorem Arms.steps_skip (arms : Arms) {scope : Scope} (hs : scope ≠ .inactive)
    {blocks : List Scope} (m : Machine) (s : σ) :
    steps r arms.items (m.withBlocks (scope :: blocks)) s =
      (.ok ((arms.skip m).withBlocks blocks), s) := by
  cases arms with
  | endIf => exact steps_turn r (.closed rfl) []
  | elseIf key comment body more =>
      rw [Arms.items]
      refine (steps_turn r (.elseIfPast rfl hs) _).trans ?_
      rw [steps_append, body.steps_skip (not_live_done _), chain_ok]
      exact more.steps_skip (by simp) _ s
  | otherwise body more =>
      rw [Arms.items]
      refine (steps_turn r (.otherwisePast rfl hs) _).trans ?_
      rw [steps_append, body.steps_skip (not_live_done _), chain_ok]
      exact more.steps_skip (by simp) _ s

end

mutual

theorem Body.steps_exec (body : Body) {blocks : List Scope} (h : Live blocks) (m : Machine)
    (s : σ) :
    steps r body.items (m.withBlocks blocks) s =
      mapOk (·.withBlocks blocks) (body.exec r m s) := by
  cases body with
  | nil => rfl
  | plain token rest =>
      rw [Body.items, steps_cons, step_eq_perform r s token.property (active_withBlocks h),
        perform_withBlocks, located_mapOk, chain_mapOk, Body.exec, mapOk_chain]
      congr 1
      funext n t
      exact rest.steps_exec h n t
  | block key comment first arms rest =>
      rw [Body.items, steps_cons, step_opened r h, chain_mapOk, Body.exec, mapOk_chain]
      congr 1
      funext holds t
      cases holds with
      | true =>
          rw [if_pos rfl, mapOk_chain, steps_append]
          change chain (steps r first.items (m.silent.withBlocks (.active :: blocks)) t) _ = _
          rw [first.steps_exec (live_active _), chain_mapOk]
          congr 1
          funext n u
          rw [steps_append, arms.steps_skip r (by simp), chain_ok]
          exact rest.steps_exec h _ u
      | false =>
          rw [if_neg (by simp), mapOk_chain, steps_append]
          change chain (steps r first.items (m.silent.withBlocks (.inactive :: blocks)) t) _ = _
          rw [first.steps_skip r (not_live_inactive _), chain_ok, steps_append,
            arms.steps_choose h, chain_mapOk]
          congr 1
          funext n u
          exact rest.steps_exec h n u

theorem Arms.steps_choose (arms : Arms) {blocks : List Scope} (h : Live blocks) (m : Machine)
    (s : σ) :
    steps r arms.items (m.withBlocks (.inactive :: blocks)) s =
      mapOk (·.withBlocks blocks) (arms.choose r m s) := by
  cases arms with
  | endIf => exact steps_turn r (.closed rfl) []
  | elseIf key comment body more =>
      rw [Arms.items, steps_cons, step_asked, chain_mapOk, Arms.choose, mapOk_chain]
      congr 1
      funext holds t
      cases holds with
      | true =>
          rw [if_pos rfl, mapOk_chain, steps_append]
          change chain (steps r body.items (m.silent.withBlocks (.active :: blocks)) t) _ = _
          rw [body.steps_exec (live_active _), chain_mapOk]
          congr 1
          funext n u
          exact more.steps_skip r (by simp) n u
      | false =>
          rw [if_neg (by simp), steps_append]
          change chain (steps r body.items (m.silent.withBlocks (.inactive :: blocks)) t) _ = _
          rw [body.steps_skip r (not_live_inactive _), chain_ok]
          exact more.steps_choose h _ t
  | otherwise body more =>
      rw [Arms.items]
      refine (steps_turn r (.reached rfl) _).trans ?_
      rw [steps_append, body.steps_exec (live_active _), chain_mapOk, Arms.choose, mapOk_chain]
      congr 1
      funext n u
      exact more.steps_skip r (by simp) n u

end

/-! ## Blocks without an end -/

/-- A mark that asks for nothing, and the skipped stretch behind it. -/
theorem run_turn_skip {mark : Mark} {blocks blocks' : List Scope} {m : Machine} {s : σ}
    (h : Turn r (m.withBlocks blocks) s mark blocks' s) (hb : ¬ Live blocks') (body : Body)
    (items : List Item) :
    run r (.ok mark.token :: (body.items ++ items)) (m.withBlocks blocks) s =
      run r items ((body.skip m.silent).withBlocks blocks') s := by
  rw [run_turn r h, run_append, body.steps_skip r hb, chain_ok]

theorem Open.run_skip (rest : Open) (blocks : List Scope) (m : Machine) (s : σ) :
    run r rest.items (m.withBlocks (.done :: blocks)) s =
      (.error (rest.skip (blocks.length + 1) m), s) := by
  induction rest generalizing blocks m with
  | ends => rfl
  | fault e unread => rfl
  | ifThen key comment body more ih =>
      have hturn : Turn r (m.withBlocks (.done :: blocks)) s (.ifThen key comment)
          (.done :: .done :: blocks) s := .buried rfl
      refine (run_turn_skip r hturn (not_live_done _) body more.items).trans ?_
      exact ih (.done :: blocks) _
  | elseIf key comment body more ih =>
      have hturn : Turn r (m.withBlocks (.done :: blocks)) s (.elseIf key comment)
          (.done :: blocks) s := .elseIfPast rfl (by simp)
      refine (run_turn_skip r hturn (not_live_done _) body more.items).trans ?_
      exact ih blocks _
  | otherwise body more ih =>
      have hturn : Turn r (m.withBlocks (.done :: blocks)) s .otherwise (.done :: blocks) s :=
        .otherwisePast rfl (by simp)
      refine (run_turn_skip r hturn (not_live_done _) body more.items).trans ?_
      exact ih blocks _

/-- What follows a condition that has been asked for. -/
theorem run_verdict {more : Open} {blocks : List Scope}
    (hlive : ∀ m s, run r more.items (m.withBlocks (.active :: blocks)) s =
      more.live r (blocks.length + 1) m s)
    (hchoose : ∀ m s, run r more.items (m.withBlocks (.inactive :: blocks)) s =
      more.choose r (blocks.length + 1) m s)
    (body : Body) (holds : Bool) (m : Machine) (s : σ) :
    run r (body.items ++ more.items) (m.withBlocks (verdict holds :: blocks)) s =
      if holds then chain (body.exec r m s) (more.live r (blocks.length + 1))
      else more.choose r (blocks.length + 1) (body.skip m) s := by
  rw [run_append]
  cases holds with
  | true =>
      rw [verdict, if_pos rfl, if_pos rfl, body.steps_exec r (live_active _), chain_mapOk]
      congr 1
      funext n t
      exact hlive n t
  | false =>
      rw [verdict, if_neg (by simp), if_neg (by simp), body.steps_skip r (not_live_inactive _),
        chain_ok]
      exact hchoose _ s

mutual

theorem Open.run_live (rest : Open) (blocks : List Scope) (m : Machine) (s : σ) :
    run r rest.items (m.withBlocks (.active :: blocks)) s =
      rest.live r (blocks.length + 1) m s := by
  cases rest with
  | ends => rfl
  | fault e unread => rfl
  | ifThen key comment body more =>
      rw [Open.items, run_cons, step_opened r (live_active blocks), chain_mapOk, Open.live]
      congr 1
      funext holds t
      exact run_verdict r (more.run_live (.active :: blocks)) (more.run_choose (.active :: blocks))
        body holds _ t
  | elseIf key comment body more =>
      have hturn : Turn r (m.withBlocks (.active :: blocks)) s (.elseIf key comment)
          (.done :: blocks) s := .elseIfPast rfl (by simp)
      refine (run_turn_skip r hturn (not_live_done _) body more.items).trans ?_
      exact more.run_skip r blocks _ s
  | otherwise body more =>
      have hturn : Turn r (m.withBlocks (.active :: blocks)) s .otherwise (.done :: blocks) s :=
        .otherwisePast rfl (by simp)
      refine (run_turn_skip r hturn (not_live_done _) body more.items).trans ?_
      exact more.run_skip r blocks _ s

theorem Open.run_choose (rest : Open) (blocks : List Scope) (m : Machine) (s : σ) :
    run r rest.items (m.withBlocks (.inactive :: blocks)) s =
      rest.choose r (blocks.length + 1) m s := by
  cases rest with
  | ends => rfl
  | fault e unread => rfl
  | ifThen key comment body more =>
      have hturn : Turn r (m.withBlocks (.inactive :: blocks)) s (.ifThen key comment)
          (.done :: .inactive :: blocks) s := .buried rfl
      refine (run_turn_skip r hturn (not_live_done _) body more.items).trans ?_
      exact more.run_skip r (.inactive :: blocks) _ s
  | elseIf key comment body more =>
      rw [Open.items, run_cons, step_asked, chain_mapOk, Open.choose]
      congr 1
      funext holds t
      exact run_verdict r (more.run_live blocks) (more.run_choose blocks) body holds _ t
  | otherwise body more =>
      have hturn : Turn r (m.withBlocks (.inactive :: blocks)) s .otherwise (.active :: blocks) s :=
        .reached rfl
      rw [Open.items]
      refine (run_turn r hturn _).trans ?_
      rw [run_append, body.steps_exec r (live_active _),
        chain_mapOk]
      congr 1
      funext n t
      exact more.run_live blocks n t

end

theorem Tail.run_eval (tail : Tail) (m : Machine) (s : σ) :
    run r tail.items (m.withBlocks []) s = tail.eval r m s := by
  cases tail with
  | ends => rfl
  | fault e unread => rfl
  | elseIf key comment body more =>
      rw [Tail.items, run_cons, step_eq_process (by simp) rfl]
      rfl
  | otherwise body more =>
      rw [Tail.items, run_cons, step_eq_process (by simp) rfl]
      rfl
  | endIf body more =>
      rw [Tail.items, run_cons, step_eq_process (by simp) rfl]
      rfl
  | ifThen key comment body more =>
      rw [Tail.items, run_cons, step_opened r live_nil, chain_mapOk, Tail.eval, Open.live]
      congr 1
      funext holds t
      exact run_verdict r (more.run_live r []) (more.run_choose r []) body holds _ t

theorem Nested.run_eval (n : Nested) (m : Machine) (s : σ) :
    run r n.items (m.withBlocks []) s = n.eval r m s := by
  rw [Nested.items, run_append, n.body.steps_exec r live_nil, chain_mapOk, Nested.eval]
  congr 1
  funext m t
  exact n.tail.run_eval r m t

end Stencil.Blocks
