import Stencil.Proofs.Machine.Run

/-! Resolvers that answer alike lead to the same runs. In particular a resolver may keep a record of
its requests. -/

namespace Stencil

/-- A request to a resolver. -/
inductive Call where
  | resolve (key : Text) (params : List Text) (context : Context)
  | assign (name text : Text)
  deriving DecidableEq

namespace Resolver

variable {σ τ : Type}

/-- The resolver with a record of the requests made to it, the failed ones included. -/
def recorded (r : Resolver σ) : Resolver (List Call × σ) where
  resolve key params context s :=
    let (value, t) := r.resolve key params context s.2
    (value, s.1 ++ [.resolve key params context], t)
  assign name text s :=
    let (done, t) := r.assign name text s.2
    (done, s.1 ++ [.assign name text], t)

/-- `q` gives the answers of `r`, whose states are the images of those of `q`. -/
structure Covers (q : Resolver τ) (r : Resolver σ) (f : τ → σ) : Prop where
  resolve : ∀ key params context t,
    r.resolve key params context (f t) = Prod.map id f (q.resolve key params context t)
  assign : ∀ name text t, r.assign name text (f t) = Prod.map id f (q.assign name text t)

theorem recorded_covers (r : Resolver σ) : r.recorded.Covers r Prod.snd :=
  ⟨fun _ _ _ _ => rfl, fun _ _ _ => rfl⟩

end Resolver

namespace Machine

variable {σ τ : Type} {q : Resolver τ} {r : Resolver σ} {f : τ → σ}

theorem andThen_image {α β : Type} (f : τ → σ) (x : Outcome τ α)
    (g : α → Except TemplateError β) :
    andThen (Prod.map id f x) g = Prod.map id f (andThen x g) := rfl

theorem lookup_covers (h : q.Covers r f) (m : Machine) (content : Text) (t : τ) :
    lookup r m content (f t) = Prod.map id f (lookup q m content t) := by
  unfold lookup
  split
  · rfl
  · exact h.resolve _ _ _ t

theorem process_covers (h : q.Covers r f) (m : Machine) (token : Token) (t : τ) :
    m.process r (f t) token = Prod.map id f (m.process q t token) := by
  cases token with
  | ifThen key comment =>
      simp only [process, ifThen]
      split
      · rw [lookup_covers h, andThen_image]
      · rfl
  | elseIf key comment =>
      simp only [process, elseIf]
      split
      · rfl
      · rfl
      · rw [lookup_covers h, andThen_image]
      · rfl
  | expand content =>
      simp only [process, execute]
      split
      · rw [lookup_covers h, andThen_image]
      · rfl
  | set text =>
      simp only [process, execute, Machine.set]
      split
      · split
        · rfl
        · rw [h.assign, andThen_image]
      · rfl
  | newline => rfl
  | otherwise => rfl
  | endIf => rfl
  | text t =>
      simp only [process, execute]
      split <;> rfl
  | pushAlign =>
      simp only [process, execute]
      split <;> rfl
  | align =>
      simp only [process, execute]
      split <;> rfl
  | popAlign =>
      simp only [process, execute]
      split <;> rfl

theorem step_covers (h : q.Covers r f) (m : Machine) (token : Token) (t : τ) :
    m.step r token (f t) = Prod.map id f (m.step q token t) := by
  unfold step
  split
  · rfl
  · rw [process_covers h, andThen_image]

theorem steps_covers (h : q.Covers r f) (items : List Item) (m : Machine) (t : τ) :
    steps r items m (f t) = Prod.map id f (steps q items m t) := by
  induction items generalizing m t with
  | nil => rfl
  | cons item items ih =>
      cases item with
      | error e => rfl
      | ok token =>
          rw [steps_cons, steps_cons, step_covers h]
          cases hs : m.step q token t with
          | mk result u =>
              cases result with
              | error e => rfl
              | ok n => exact ih n u

end Machine

/-- Resolvers that answer alike expand a template alike. -/
theorem expand_covers {σ τ : Type} {q : Resolver τ} {r : Resolver σ} {f : τ → σ}
    (h : q.Covers r f) (template : Text) (t : τ) :
    expand r template (f t) = Prod.map id f (expand q template t) := by
  rw [Machine.expand_eq_steps, Machine.expand_eq_steps, Machine.steps_covers h]
  cases hs : Machine.steps q (tokenize template) .start t with
  | mk result u =>
      cases result with
      | error e => rfl
      | ok n => rfl

/-- The requests that an expansion makes, in order. -/
def calls {σ : Type} (r : Resolver σ) (template : Text) (s : σ) : List Call :=
  (expand r.recorded template ([], s)).2.1

end Stencil
