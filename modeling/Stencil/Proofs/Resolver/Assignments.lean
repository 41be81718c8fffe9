import Stencil.Proofs.Machine.Run
import Stencil.Resolver.Map

/-! What a run writes into a store. A resolver that only stores assignments is left by a run, also a
failed one, as the assignments that the run has executed leave it, one after the other. -/

namespace Stencil

/-- The text assigned to a name last. -/
def lastText (name : Text) (assignments : List Assignment) : Option Text :=
  (assignments.filter (·.name = name)).getLast?.map (·.value)

theorem lastText_cons (name : Text) (a : Assignment) (assignments : List Assignment) :
    lastText name (a :: assignments) =
      (lastText name assignments).or (if name = a.name then some a.value else none) := by
  by_cases h : a.name = name
  · rw [lastText, List.filter_cons_of_pos (by simpa using h), List.getLast?_cons, if_pos h.symm,
      lastText]
    cases ((assignments.filter (·.name = name)).getLast?) <;> rfl
  · rw [lastText, List.filter_cons_of_neg (by simpa using h), if_neg (Ne.symm h), Option.or_none,
      lastText]

namespace Resolver

/-- Only an assignment changes the state, and none fails. -/
structure Stores {σ : Type} (r : Resolver σ) (write : σ → Assignment → σ) : Prop where
  resolve : ∀ key params context s, (r.resolve key params context s).2 = s
  assign : ∀ name text s, r.assign name text s = (.ok (), write s ⟨name, text⟩)

theorem bindings_stores : bindings.Stores fun values a => values.insert a.name (.text a.value) where
  resolve := by
    intro key params context values
    simp only [bindings]
    split <;> rfl
  assign := fun _ _ _ => rfl

end Resolver

namespace Machine

variable {σ : Type} {r : Resolver σ} {write : σ → Assignment → σ}

/-- The assignment that the token of a visit makes. Only an active scope executes it. -/
def Visit.assignment? (v : Visit σ) : Option Assignment :=
  match v.token with
  | .set text => if v.machine.active then Assignment.read? text else none
  | _ => none

/-! ## One token -/

theorem lookup_stores (h : r.Stores write) (m : Machine) (content : Text) (s : σ) :
    (lookup r m content s).2 = s := by
  unfold lookup
  split
  · rfl
  · exact h.resolve _ _ _ s

theorem process_stores (h : r.Stores write) (m : Machine) (token : Token) (s : σ) :
    (m.process r s token).2 = (Visit.assignment? ⟨m, token, s⟩).toList.foldl write s := by
  cases token with
  | ifThen key comment =>
      simp only [process, ifThen]
      split
      · exact lookup_stores h m key s
      · rfl
  | elseIf key comment =>
      simp only [process, elseIf]
      split
      · rfl
      · rfl
      · exact lookup_stores h m key s
      · rfl
  | expand content =>
      simp only [process, execute]
      split
      · exact lookup_stores h m content s
      · rfl
  | set text =>
      simp only [process, execute, Machine.set, Visit.assignment?]
      split
      · cases Assignment.read? text with
        | none => rfl
        | some a => exact congrArg Prod.snd (h.assign a.name a.value s)
      · rfl
  | newline => rfl
  | otherwise => rfl
  | endIf => rfl
  | text t =>
      simp only [process, execute]
      split <;> rfl
  | pushAlign =>
      simp only [process, execute]
      split <;> rfl
  | align =>
      simp only [process, execute]
      split <;> rfl
  | popAlign =>
      simp only [process, execute]
      split <;> rfl

theorem step_stores (h : r.Stores write) (m : Machine) (token : Token) (s : σ) :
    (m.step r token s).2 = (Visit.assignment? ⟨m, token, s⟩).toList.foldl write s := by
  unfold step
  split
  · rename_i hswallowed
    obtain ⟨-, rfl⟩ : m.swallow = true ∧ token = .newline := by simpa using hswallowed
    rfl
  · exact process_stores h m token s

/-! ## A run -/

/-- The assignments that a run executes. -/
def executed (r : Resolver σ) (items : List Item) (m : Machine) (s : σ) : List Assignment :=
  (visits r items m s).filterMap Visit.assignment?

theorem filterMap_assignment? (v : Visit σ) (more : List (Visit σ)) :
    (v :: more).filterMap Visit.assignment? =
      v.assignment?.toList ++ more.filterMap Visit.assignment? := by
  rw [List.filterMap_cons]
  cases v.assignment? <;> rfl

theorem steps_stores (h : r.Stores write) (items : List Item) (m : Machine) (s : σ) :
    (steps r items m s).2 = (executed r items m s).foldl write s := by
  induction items generalizing m s with
  | nil => rfl
  | cons item items ih =>
      cases item with
      | error e => rfl
      | ok token =>
          have hstep := step_stores h m token s
          rw [steps_cons]
          cases hs : m.step r token s with
          | mk result t =>
              rw [hs] at hstep
              obtain rfl : t = _ := hstep
              cases result with
              | error e => simp [executed, visits, hs, filterMap_assignment?]
              | ok n =>
                  rw [executed, visits_cons r hs, filterMap_assignment?, List.foldl_append]
                  exact ih n _

end Machine

/-! ## An expansion -/

/-- The assignments that an expansion executes. -/
def executed {σ : Type} (r : Resolver σ) (template : Text) (s : σ) : List Assignment :=
  Machine.executed r (tokenize template) .start s

theorem expand_stores {σ : Type} {r : Resolver σ} {write : σ → Assignment → σ}
    (h : r.Stores write) (template : Text) (s : σ) :
    (expand r template s).2 = (executed r template s).foldl write s := by
  rw [executed, ← Machine.steps_stores h, Machine.expand_eq_steps]
  rcases Machine.steps r (tokenize template) .start s with ⟨result, t⟩
  cases result <;> rfl

/-- An expansion, also a failed one, leaves an entry as it was, unless it assigned to the name: then
the entry is the text it assigned last. -/
theorem find?_expand (template name : Text) (values : Bindings Value) :
    (expand .bindings template values).2.find? name =
      ((lastText name (executed .bindings template values)).map .text).or (values.find? name) := by
  rw [expand_stores Resolver.bindings_stores]
  induction executed .bindings template values generalizing values with
  | nil => rfl
  | cons a assignments ih =>
      rw [List.foldl_cons, ih, Bindings.find?_insert, lastText_cons, Option.map_or, Option.or_assoc]
      congr 1
      split <;> rfl

end Stencil
