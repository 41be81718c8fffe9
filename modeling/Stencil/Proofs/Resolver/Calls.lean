import Stencil.Proofs.Resolver.Recorded

/-! The requests of a run are those of its visits, one visit after the other, and every value is
asked for at the place where the output stands. -/

namespace Stencil

namespace Machine

variable {σ τ : Type} {q : Resolver τ} {r : Resolver σ} {f : τ → σ}

/-- The visit with another state of the resolver. -/
def Visit.image (f : τ → σ) (v : Visit τ) : Visit σ := ⟨v.machine, v.token, f v.state⟩

theorem visits_covers (h : q.Covers r f) (items : List Item) (m : Machine) (t : τ) :
    visits r items m (f t) = (visits q items m t).map (Visit.image f) := by
  induction items generalizing m t with
  | nil => rfl
  | cons item items ih =>
      cases item with
      | error e => rfl
      | ok token =>
          have hstep := step_covers h m token t
          cases hs : m.step q token t with
          | mk result u =>
              rw [hs] at hstep
              cases result with
              | error e => simp [visits, hstep, hs, Visit.image]
              | ok n =>
                  rw [visits_cons r hstep, visits_cons q hs, List.map_cons]
                  exact congrArg _ (ih n u)

/-! ## The requests of a visit -/

/-- The requests that the token of a visit makes. -/
def Visit.calls (r : Resolver σ) (v : Visit σ) : List Call :=
  (v.machine.step r.recorded v.token ([], v.state)).2.1

/-- What has been recorded before does not matter. -/
theorem covers_earlier (r : Resolver σ) (earlier : List Call) :
    r.recorded.Covers r.recorded fun s => (earlier ++ s.1, s.2) where
  resolve := by simp [Resolver.recorded]
  assign := by simp [Resolver.recorded]

theorem steps_calls (items : List Item) (m : Machine) (earlier : List Call) (s : σ) :
    (steps r.recorded items m (earlier, s)).2.1 =
      earlier ++ (visits r items m s).flatMap (·.calls r) := by
  induction items generalizing m earlier s with
  | nil => simp [visits]
  | cons item items ih =>
      cases item with
      | error e => simp [visits]
      | ok token =>
          have hrecorded : m.step r.recorded token (earlier, s) =
              Prod.map id (fun s => (earlier ++ s.1, s.2)) (m.step r.recorded token ([], s)) := by
            simpa using step_covers (covers_earlier r earlier) m token ([], s)
          have hstep : m.step r token s = Prod.map id Prod.snd (m.step r.recorded token ([], s)) :=
            step_covers r.recorded_covers m token ([], s)
          rw [steps_cons, hrecorded]
          cases hs : m.step r.recorded token ([], s) with
          | mk result u =>
              obtain ⟨new, t⟩ := u
              rw [hs] at hstep
              have hnew : Visit.calls r ⟨m, token, s⟩ = new := by rw [Visit.calls, hs]
              cases result with
              | error e => simp [visits, hstep, hnew]
              | ok n =>
                  rw [visits_cons r hstep, List.flatMap_cons, hnew, ← List.append_assoc]
                  exact ih n (earlier ++ new) t

/-! ## Where values are asked for -/

theorem mem_calls_lookup {m : Machine} {content : Text} {s : σ} {call : Call}
    (h : call ∈ (lookup r.recorded m content ([], s)).2.1) :
    ∃ key params, call = .resolve key params m.output.context := by
  unfold lookup at h
  split at h
  · simp at h
  · exact ⟨_, _, by simpa [Resolver.recorded] using h⟩

theorem mem_calls_set {m : Machine} {text : Text} {s : σ} {call : Call}
    (h : call ∈ (m.set r.recorded text ([], s)).2.1) : ∃ name text, call = .assign name text := by
  unfold Machine.set at h
  split at h
  · simp at h
  · exact ⟨_, _, by simpa [Resolver.recorded, andThen] using h⟩

theorem mem_calls_process {m : Machine} {token : Token} {s : σ} {call : Call}
    (h : call ∈ (m.process r.recorded ([], s) token).2.1) :
    (∃ key params, call = .resolve key params m.output.context) ∨
      ∃ name text, call = .assign name text := by
  cases token with
  | ifThen key comment =>
      simp only [process, ifThen] at h
      split at h
      · exact .inl (mem_calls_lookup h)
      · simp at h
  | elseIf key comment =>
      simp only [process, elseIf] at h
      split at h
      · simp at h
      · simp at h
      · exact .inl (mem_calls_lookup h)
      · simp at h
  | expand content =>
      simp only [process, execute] at h
      split at h
      · exact .inl (mem_calls_lookup h)
      · simp at h
  | set text =>
      simp only [process, execute] at h
      split at h
      · exact .inr (mem_calls_set h)
      · simp at h
  | newline => simp [process] at h
  | otherwise => simp [process] at h
  | endIf => simp [process] at h
  | text t =>
      simp only [process, execute] at h
      split at h <;> simp at h
  | pushAlign =>
      simp only [process, execute] at h
      split at h <;> simp at h
  | align =>
      simp only [process, execute] at h
      split at h <;> simp at h
  | popAlign =>
      simp only [process, execute] at h
      split at h <;> simp at h

/-- A value is asked for with the place at which the output stands. -/
theorem context_of_call {v : Visit σ} {key : Text} {params : List Text} {context : Context}
    (h : .resolve key params context ∈ v.calls r) : context = v.machine.output.context := by
  have hprocess : .resolve key params context ∈
      (v.machine.process r.recorded ([], v.state) v.token).2.1 := by
    unfold Visit.calls step at h
    split at h
    · simp at h
    · exact h
  rcases mem_calls_process hprocess with ⟨key', params', h⟩ | ⟨name, text, h⟩
  · exact (Call.resolve.inj h).2.2
  · simp at h

end Machine

/-- The requests of an expansion are those of its visits. -/
theorem calls_eq_visits {σ : Type} (r : Resolver σ) (template : Text) (s : σ) :
    calls r template s =
      (Machine.visits r (tokenize template) .start s).flatMap (·.calls r) := by
  have hsteps := Machine.steps_calls (r := r) (tokenize template) .start [] s
  rw [calls, Machine.expand_eq_steps]
  rw [List.nil_append] at hsteps
  rw [← hsteps]
  rcases Machine.steps r.recorded (tokenize template) .start ([], s) with ⟨result, u⟩
  cases result <;> rfl

end Stencil
