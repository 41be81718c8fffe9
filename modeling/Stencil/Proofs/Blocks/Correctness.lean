import Stencil.Proofs.Blocks.Simulation

/-! The expansion of a template is the evaluation of its nested blocks, result, final state and
requests alike. What is skipped moves the line number and may drop a blank line being built. -/

namespace Stencil.Blocks

open Machine

/-! ## What skipping leaves alone -/

/-- Nothing is written and no line is completed while line breaks are counted. -/
structure Untouched (breaks : Nat) (m n : Machine) : Prop where
  line : n.line = m.line + breaks
  blocks : n.blocks = m.blocks
  alignments : n.alignments = m.alignments
  output : n.output = m.output ∨ m.output.isBlank = true ∧ n.output = m.output.discard

theorem Untouched.trans {i j : Nat} {m n k : Machine} (h : Untouched i m n)
    (h' : Untouched j n k) : Untouched (i + j) m k where
  line := by rw [h'.line, h.line, Nat.add_assoc]
  blocks := h'.blocks.trans h.blocks
  alignments := h'.alignments.trans h.alignments
  output := by
    rcases h.output with ho | ⟨hb, ho⟩
    · rcases h'.output with ho' | ⟨hb', ho'⟩
      · exact .inl (ho'.trans ho)
      · rw [ho] at hb' ho'
        exact .inr ⟨hb', ho'⟩
    · refine .inr ⟨hb, ?_⟩
      rcases h'.output with ho' | ⟨_, ho'⟩
      · exact ho'.trans ho
      · rw [ho', ho]
        rfl

theorem untouched_silent (m : Machine) : Untouched 0 m m.silent := ⟨rfl, rfl, rfl, .inl rfl⟩

theorem untouched_overlook (m : Machine) (token : Token) :
    Untouched (newlines [.ok token]) m (m.overlook token) := by
  unfold overlook
  split
  · rename_i hn
    subst hn
    split
    · refine ⟨rfl, rfl, rfl, ?_⟩
      cases hb : m.output.isBlank with
      | false => exact .inl (by simp [swallowNewline, hb])
      | true => exact .inr ⟨rfl, by simp [swallowNewline, hb]⟩
    · exact ⟨rfl, rfl, rfl, .inl rfl⟩
  · rename_i hn
    rw [newlines_plain hn]
    exact ⟨rfl, rfl, rfl, .inl rfl⟩

mutual

theorem Body.skip_untouched (body : Body) (m : Machine) :
    Untouched (newlines body.items) m (body.skip m) := by
  cases body with
  | nil => exact ⟨rfl, rfl, rfl, .inl rfl⟩
  | plain token rest =>
      rw [Body.items, newlines_cons]
      exact (untouched_overlook m token).trans (rest.skip_untouched _)
  | block key comment first arms rest =>
      rw [Body.items, newlines_cons, newlines_append, newlines_append]
      exact (untouched_silent m).trans <| (first.skip_untouched _).trans <|
        (arms.skip_untouched _).trans (rest.skip_untouched _)

theorem Arms.skip_untouched (arms : Arms) (m : Machine) :
    Untouched (newlines arms.items) m (arms.skip m) := by
  cases arms with
  | endIf => exact untouched_silent m
  | elseIf key comment body more =>
      rw [Arms.items, newlines_cons, newlines_append]
      exact (untouched_silent m).trans ((body.skip_untouched _).trans (more.skip_untouched _))
  | otherwise body more =>
      rw [Arms.items, newlines_cons, newlines_append]
      exact (untouched_silent m).trans ((body.skip_untouched _).trans (more.skip_untouched _))

end

/-! ## Equivalence -/

variable {σ : Type} (r : Resolver σ)

theorem run_eq_eval (items : List Item) (s : σ) :
    run r items .start s = (read items).eval r .start s := by
  have h := (read items).run_eval r .start s
  rwa [items_read] at h

/-- The requests that the evaluation of the nested blocks makes, in order. -/
def calls (template : Text) (s : σ) : List Call := (Blocks.expand r.recorded template ([], s)).2.1

/-- The machine expands a template as its nested blocks say, with the same requests in the same
order. The blocks are those of the template, and a skipped stretch does no more than counting
lines. -/
theorem expand_eq_blocks (template : Text) (s : σ) :
    Stencil.expand r template s = Blocks.expand r template s ∧
      Stencil.calls r template s = Blocks.calls r template s ∧
      Stencil.expand r template s =
        Prod.map id Prod.snd (Stencil.expand r.recorded template ([], s)) ∧
      (read (tokenize template)).items = tokenize template ∧
      (∀ (body : Body) (m : Machine), Untouched (newlines body.items) m (body.skip m)) ∧
      ∀ (arms : Arms) (m : Machine), Untouched (newlines arms.items) m (arms.skip m) := by
  refine ⟨run_eq_eval r _ s, ?_, ?_, items_read _, Body.skip_untouched, Arms.skip_untouched⟩
  · have h := run_eq_eval r.recorded (tokenize template) ([], s)
    exact congrArg (fun outcome => outcome.2.1) h
  · exact expand_covers r.recorded_covers template ([], s)

end Stencil.Blocks
