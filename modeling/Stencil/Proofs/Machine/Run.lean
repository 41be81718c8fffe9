import Stencil.Template.Expand
import Stencil.Proofs.Machine.Step

/-! Runs of the machine: what one step preserves holds at the end of a run, a run over two lists is
two runs, and the visits of a run are the states in which its tokens were met. -/

namespace Stencil.Machine

variable {σ : Type}

/-! ## Outcomes in sequence -/

/-- Goes on with a result and the state of the resolver, or stops at the error. -/
def chain {α β : Type} (x : Outcome σ α) (f : α → σ → Outcome σ β) : Outcome σ β :=
  match x with
  | (.ok a, s) => f a s
  | (.error e, s) => (.error e, s)

/-- Adds to an error the line at which it was raised. -/
def located {α : Type} (line : Nat) (x : Outcome σ α) : Outcome σ α :=
  (x.1.mapError (.atLine line), x.2)

/-- Changes the result and nothing else. -/
def mapOk {α β : Type} (f : α → β) (x : Outcome σ α) : Outcome σ β := (x.1.map f, x.2)

@[simp] theorem chain_ok {α β : Type} (a : α) (s : σ) (f : α → σ → Outcome σ β) :
    chain (.ok a, s) f = f a s := rfl

@[simp] theorem chain_error {α β : Type} (e : TemplateError) (s : σ)
    (f : α → σ → Outcome σ β) : chain (.error e, s) f = (.error e, s) := rfl

@[simp] theorem located_ok {α : Type} (line : Nat) (a : α) (s : σ) :
    located line (.ok a, s) = (.ok a, s) := rfl

@[simp] theorem located_error {α : Type} (line : Nat) (e : TemplateError) (s : σ) :
    located (α := α) line (.error e, s) = (.error (.atLine line e), s) := rfl

@[simp] theorem mapOk_ok {α β : Type} (f : α → β) (a : α) (s : σ) :
    mapOk f (.ok a, s) = (.ok (f a), s) := rfl

@[simp] theorem mapOk_error {α β : Type} (f : α → β) (e : TemplateError) (s : σ) :
    mapOk f (.error e, s) = (.error e, s) := rfl

/-- An error stays the first one whatever was to follow. -/
theorem chain_error_of {α β : Type} {x : Outcome σ α} {e : TemplateError} (h : x.1 = .error e)
    (f : α → σ → Outcome σ β) : chain x f = (.error e, x.2) := by
  obtain ⟨result, s⟩ := x
  obtain rfl : result = .error e := h
  rfl

theorem chain_assoc {α β γ : Type} (x : Outcome σ α) (f : α → σ → Outcome σ β)
    (g : β → σ → Outcome σ γ) : chain (chain x f) g = chain x fun a s => chain (f a s) g := by
  obtain ⟨result, s⟩ := x
  cases result with
  | error e => rfl
  | ok a => rfl

theorem chain_mapOk {α β γ : Type} (f : α → β) (x : Outcome σ α) (g : β → σ → Outcome σ γ) :
    chain (mapOk f x) g = chain x fun a s => g (f a) s := by
  obtain ⟨result, s⟩ := x
  cases result with
  | error e => rfl
  | ok a => rfl

theorem mapOk_chain {α β γ : Type} (f : β → γ) (x : Outcome σ α) (g : α → σ → Outcome σ β) :
    mapOk f (chain x g) = chain x fun a s => mapOk f (g a s) := by
  obtain ⟨result, s⟩ := x
  cases result with
  | error e => rfl
  | ok a => rfl

theorem located_mapOk {α β : Type} (line : Nat) (f : α → β) (x : Outcome σ α) :
    located line (mapOk f x) = mapOk f (located line x) := by
  obtain ⟨result, s⟩ := x
  cases result with
  | error e => rfl
  | ok a => rfl

theorem chain_eq_ok {α β : Type} {x : Outcome σ α} {f : α → σ → Outcome σ β} {b : β} {t : σ} :
    chain x f = (.ok b, t) ↔ ∃ a s, x = (.ok a, s) ∧ f a s = (.ok b, t) := by
  obtain ⟨result, s⟩ := x
  cases result with
  | error e => simp
  | ok a =>
      constructor
      · intro h
        exact ⟨a, s, rfl, h⟩
      · rintro ⟨a', s', he, h⟩
        obtain ⟨rfl, rfl⟩ := ok_inj.mp he
        exact h

theorem located_eq_ok {α : Type} {line : Nat} {x : Outcome σ α} {a : α} {s : σ} :
    located line x = (.ok a, s) ↔ x = (.ok a, s) := by
  obtain ⟨result, t⟩ := x
  cases result with
  | error e => simp
  | ok b => simp

/-! ## Runs -/

/-- Runs the machine over items and asks nothing of it at their end. -/
def steps (r : Resolver σ) : List Item → Machine → σ → Outcome σ Machine
  | [], m, s => (.ok m, s)
  | .error e :: _, m, s => (.error (.atLine m.line e), s)
  | .ok token :: items, m, s => chain (located m.line (m.step r token s)) (steps r items)

variable (r : Resolver σ)

@[simp] theorem steps_nil (m : Machine) (s : σ) : steps r [] m s = (.ok m, s) := rfl

@[simp] theorem steps_error (e : TemplateError) (items : List Item) (m : Machine) (s : σ) :
    steps r (.error e :: items) m s = (.error (.atLine m.line e), s) := rfl

@[simp] theorem steps_cons (token : Token) (items : List Item) (m : Machine) (s : σ) :
    steps r (.ok token :: items) m s =
      chain (located m.line (m.step r token s)) (steps r items) := rfl

theorem run_cons (token : Token) (items : List Item) (m : Machine) (s : σ) :
    run r (.ok token :: items) m s = chain (located m.line (m.step r token s)) (run r items) := by
  rw [run]
  cases h : m.step r token s with
  | mk result t => cases result <;> rfl

theorem run_eq_steps (items : List Item) (m : Machine) (s : σ) :
    run r items m s = chain (steps r items m s) fun m s => (m.finish, s) := by
  induction items generalizing m s with
  | nil => rfl
  | cons item items ih =>
      cases item with
      | error e => rfl
      | ok token =>
          rw [run_cons, steps_cons, chain_assoc]
          congr 1
          funext m' t
          exact ih m' t

/-- Every error of a run comes with a line. -/
theorem run_error {items : List Item} {m : Machine} {e : TemplateError} {s s' : σ}
    (h : run r items m s = (.error e, s')) : ∃ line source, e = .atLine line source := by
  induction items generalizing m s with
  | nil =>
      have hfinish : m.finish = .error e := congrArg Prod.fst h
      unfold finish at hfinish
      split at hfinish
      · simp at hfinish
      · exact ⟨_, _, (Except.error.inj hfinish).symm⟩
  | cons item items ih =>
      cases item with
      | error source => exact ⟨m.line, source, (Except.error.inj (congrArg Prod.fst h)).symm⟩
      | ok token =>
          rw [run_cons] at h
          cases hs : m.step r token s with
          | mk result t =>
              rw [hs] at h
              cases result with
              | error source =>
                  exact ⟨m.line, source, (Except.error.inj (congrArg Prod.fst h)).symm⟩
              | ok n => exact ih h

theorem expand_eq_steps (template : Text) (s : σ) :
    expand r template s =
      chain (steps r (tokenize template) .start s) fun m s => (m.finish, s) :=
  run_eq_steps r _ _ _

theorem steps_append (xs ys : List Item) (m : Machine) (s : σ) :
    steps r (xs ++ ys) m s = chain (steps r xs m s) (steps r ys) := by
  induction xs generalizing m s with
  | nil => rfl
  | cons item xs ih =>
      cases item with
      | error e => rfl
      | ok token =>
          rw [List.cons_append, steps_cons, steps_cons, chain_assoc]
          congr 1
          funext m' t
          exact ih m' t

theorem run_append (xs ys : List Item) (m : Machine) (s : σ) :
    run r (xs ++ ys) m s = chain (steps r xs m s) (run r ys) := by
  rw [run_eq_steps, steps_append, chain_assoc]
  congr 1
  funext m' t
  exact (run_eq_steps r ys m' t).symm

/-- The first token of a run and the run after it. -/
theorem steps_cons_eq_ok {token : Token} {items : List Item} {m m' : Machine} {s s' : σ} :
    steps r (.ok token :: items) m s = (.ok m', s') ↔
      ∃ n t, Step r m s token n t ∧ steps r items n t = (.ok m', s') := by
  rw [steps_cons, chain_eq_ok]
  simp only [located_eq_ok, step_iff]

/-- What every step preserves holds at the end of a run. -/
theorem steps_preserve {P : Machine → Prop}
    (hstep : ∀ {m s token n t}, P m → Step r m s token n t → P n)
    {items : List Item} {m m' : Machine} {s s' : σ} (hm : P m)
    (h : steps r items m s = (.ok m', s')) : P m' := by
  induction items generalizing m s with
  | nil =>
      obtain ⟨rfl, rfl⟩ := ok_inj.mp h
      exact hm
  | cons item items ih =>
      cases item with
      | error e => simp at h
      | ok token =>
          obtain ⟨n, t, hs, h⟩ := (steps_cons_eq_ok r).mp h
          exact ih (hstep hm hs) h

/-! ## The line number -/

/-- Whether an item is a line break. -/
def isNewline : Item → Bool
  | .ok .newline => true
  | _ => false

/-- The number of line breaks. -/
def newlines (items : List Item) : Nat := items.countP isNewline

theorem newlines_cons (token : Token) (items : List Item) :
    newlines (.ok token :: items) = newlines [.ok token] + newlines items := by
  rw [newlines, newlines, newlines, ← List.countP_append]
  rfl

theorem newlines_append (xs ys : List Item) : newlines (xs ++ ys) = newlines xs + newlines ys :=
  List.countP_append

theorem newlines_plain {token : Token} (h : token ≠ .newline) : newlines [.ok token] = 0 := by
  cases token <;> first | rfl | exact (h rfl).elim

/-- Every line break raises the line number, in any branch, swallowed or not. -/
theorem step_line {m n : Machine} {s t : σ} {token : Token} (h : Step r m s token n t) :
    n.line = m.line + newlines [.ok token] := by
  cases h with
  | swallowed h => rfl
  | newline h => rfl
  | @mark mark blocks s' h => cases mark <;> rfl
  | passed hp hn h =>
      rw [newlines_plain hn]
      rfl
  | text h => rfl
  | expand h hl => exact (expansion_frame m _).2.2
  | set h ha hr => rfl
  | pushAlign h => rfl
  | align h ha => rfl
  | popAlign h ha => rfl

theorem steps_line {items : List Item} {m n : Machine} {s t : σ}
    (h : steps r items m s = (.ok n, t)) : n.line = m.line + newlines items := by
  induction items generalizing m s with
  | nil =>
      obtain ⟨rfl, rfl⟩ := ok_inj.mp h
      rfl
  | cons item items ih =>
      cases item with
      | error e => simp at h
      | ok token =>
          obtain ⟨k, u, hs, h⟩ := (steps_cons_eq_ok r).mp h
          rw [ih h, step_line r hs, newlines_cons token items, Nat.add_assoc]

/-! ## Visits -/

/-- A token as a run meets it, with the machine and the state of the resolver before it. -/
structure Visit (σ : Type) where
  machine : Machine
  token : Token
  state : σ

/-- The visits of a run, the failing one included. -/
def visits : List Item → Machine → σ → List (Visit σ)
  | .ok token :: items, m, s =>
    ⟨m, token, s⟩ ::
      match m.step r token s with
      | (.ok m, s) => visits items m s
      | (.error _, _) => []
  | _, _, _ => []

theorem visits_cons {token : Token} {items : List Item} {m n : Machine} {s t : σ}
    (h : m.step r token s = (.ok n, t)) :
    visits r (.ok token :: items) m s = ⟨m, token, s⟩ :: visits r items n t := by
  rw [visits, h]

/-- A run visits each token that it reaches, in the state that the tokens before it lead to. -/
theorem mem_visits_iff {items : List Item} {m : Machine} {s : σ} {v : Visit σ} :
    v ∈ visits r items m s ↔ ∃ front rest, items = front ++ .ok v.token :: rest ∧
      steps r front m s = (.ok v.machine, v.state) := by
  constructor
  · intro hv
    induction items generalizing m s with
    | nil => simp [visits] at hv
    | cons item items ih =>
        cases item with
        | error e => simp [visits] at hv
        | ok token =>
            rw [visits] at hv
            rcases List.mem_cons.mp hv with rfl | hv
            · exact ⟨[], items, rfl, rfl⟩
            split at hv
            · rename_i n t hs
              obtain ⟨front, rest, rfl, hfront⟩ := ih hv
              refine ⟨.ok token :: front, rest, rfl, ?_⟩
              exact (steps_cons_eq_ok r).mpr ⟨n, t, step_relation hs, hfront⟩
            · simp at hv
  · rintro ⟨front, rest, rfl, hfront⟩
    induction front generalizing m s with
    | nil =>
        obtain ⟨rfl, rfl⟩ := ok_inj.mp hfront
        simp [visits]
    | cons item front ih =>
        cases item with
        | error e => simp at hfront
        | ok token =>
            obtain ⟨n, t, hs, hfront⟩ := (steps_cons_eq_ok r).mp hfront
            rw [List.cons_append, visits_cons r hs.execution]
            exact List.mem_cons_of_mem _ (ih hfront)

end Stencil.Machine
