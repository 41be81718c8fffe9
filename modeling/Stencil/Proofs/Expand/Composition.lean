import Stencil.Proofs.Machine.Past
import Stencil.Proofs.Machine.Settled
import Stencil.Resolver.Map

/-! Expanding two templates one below the other. Between them the resolver and the alignments that
are still open are all that is carried over. -/

namespace Stencil

open Machine Lines

/-! ## Reading -/

/-- The lines of the second template follow those of the first, unless a fault stands before. -/
theorem items_join (a b : Text) :
    items (a ++ '\n' :: b) = items a ++ items b ∨
      (∃ e, .error e ∈ items a) ∧ items (a ++ '\n' :: b) = items a := by
  have hjoin : ofText (a ++ '\n' :: b) = ofText a ++ ofText b := by
    rw [ofText, List.splitOn_append_cons_self, List.flatMap_append]
    rfl
  rcases exists_tokens (ofText a) with ⟨tokens, ha⟩ | ⟨tokens, e, unread, ha⟩
  · left
    rw [items, items, hjoin, ha, untilFault_ofTokens_append, untilFault_ofTokens]
    rfl
  · right
    have hitems : items a = ofTokens tokens ++ [.error e] := by
      rw [items, ha, untilFault_ofTokens_append, untilFault_error]
    refine ⟨⟨e, by simp [hitems]⟩, ?_⟩
    rw [hitems, items, hjoin, ha, List.append_assoc, untilFault_ofTokens_append, List.cons_append,
      untilFault_error]

variable {σ : Type} (r : Resolver σ)

/-! ## Outcomes of templates -/

/-- The alignments that a template leaves open. -/
def openAlignments (template : Text) (s : σ) : List Text :=
  match steps r (tokenize template) .start s with
  | (.ok m, _) => m.alignments
  | (.error _, _) => []

/-- A template on top of a past: its lines come after those of the past, and its errors are at
later lines. -/
theorem run_after (past : Past) (template : Text) (s : σ)
    (h : past.alignments = [] ∨ ¬ Unbalanced (expand r template s).1) :
    run r (items template) (Machine.start.after past) s =
      raised past.count (mapOk (past.lines ++ ·) (expand r template s)) := by
  have hsteps : past.alignments = [] ∨
      ¬ Unbalanced (steps r (items template) .start s).1 := by
    rcases h with h | h
    · exact .inl h
    · refine .inr fun ⟨line, marker, he⟩ => h ⟨line, marker, ?_⟩
      rw [expand_eq_steps, tokenize_eq, chain_error_of he]
  rw [run_eq_steps, steps_after r past _ _ hsteps, expand_eq_steps, tokenize_eq]
  cases hs : steps r (items template) .start s with
  | mk result u =>
      cases result with
      | error e => rfl
      | ok m =>
          have hline : 2 ≤ m.line := by
            rw [steps_line r hs, newlines_of_steps hs]
            change 2 ≤ 1 + _
            omega
          change ((m.after past).finish, u) = _
          rw [finish_after past m hline]
          rfl

/-- A template that fails while it is read fails in the same way whatever follows it. -/
theorem expand_join_of_error {a : Text} (b : Text) {e : TemplateError} {s s' : σ}
    (h : steps r (items a) .start s = (.error e, s')) :
    expand r (a ++ '\n' :: b) s = (.error e, s') := by
  rw [expand, tokenize_eq]
  rcases items_join a b with hitems | ⟨-, hitems⟩
  · rw [hitems, run_append, h]
    rfl
  · rw [hitems, run_eq_steps, h]
    rfl

/-- After a template that succeeds another one starts afresh, but for the open alignments. -/
theorem expand_join_of_ok {a : Text} (b : Text) {lines : List Text} {s s' : σ}
    (ha : expand r a s = (.ok lines, s'))
    (h : openAlignments r a s = [] ∨ ¬ Unbalanced (expand r b s').1) :
    expand r (a ++ '\n' :: b) s =
      raised (a.count '\n' + 1) (mapOk (lines ++ ·) (expand r b s')) := by
  obtain ⟨m, hsteps, hblocks, rfl⟩ := expand_eq_ok ha
  have hopen : openAlignments r a s = m.alignments := by
    rw [openAlignments, tokenize_eq, hsteps]
  have hitems : items (a ++ '\n' :: b) = items a ++ items b := by
    rcases items_join a b with hitems | ⟨⟨e, he⟩, -⟩
    · exact hitems
    · obtain ⟨tokens, htokens⟩ := tokens_of_steps hsteps
      rw [htokens] at he
      exact (error_not_mem_ofTokens he).elim
  let past : Past := ⟨m.output.lines, m.alignments, a.count '\n' + 1⟩
  have hstart : m = Machine.start.after past := by
    rw [eq_of_steps hsteps hblocks]
    simp [Machine.after, Output.after, start, Output.empty, past]
    omega
  rw [hopen] at h
  rw [expand, tokenize_eq, hitems, run_append, hsteps, chain_ok]
  exact (congrArg (run r (items b) · s') hstart).trans (run_after r past b s' h)

/-- Templates compose over line breaks. When the first one succeeds, what follows is expanded with
the state it leaves and gives its lines below, or its error at a later line; an alignment left open
matters only to an error that it would have prevented. When the first one fails while it is read,
nothing after it matters. -/
theorem expand_join (a b : Text) (s : σ) :
    (∀ lines s', expand r a s = (.ok lines, s') →
      (openAlignments r a s = [] ∨
        ∀ line marker, (expand r b s').1 ≠ .error (.atLine line (.unbalancedAlignment marker))) →
      (∀ more s'', expand r b s' = (.ok more, s'') →
        expand r (a ++ '\n' :: b) s = (.ok (lines ++ more), s'')) ∧
      ∀ e s'', expand r b s' = (.error e, s'') → ∃ line source, e = .atLine line source ∧
        expand r (a ++ '\n' :: b) s = (.error (.atLine (line + (a.count '\n' + 1)) source), s'')) ∧
    ∀ e s', steps r (tokenize a) .start s = (.error e, s') →
      expand r a s = (.error e, s') ∧ expand r (a ++ '\n' :: b) s = (.error e, s') := by
  refine ⟨?_, ?_⟩
  · intro lines s' ha h
    have happly : openAlignments r a s = [] ∨ ¬ Unbalanced (expand r b s').1 := by
      rcases h with h | h
      · exact .inl h
      · exact .inr fun ⟨line, marker, he⟩ => h line marker he
    have hjoin := expand_join_of_ok r b ha happly
    refine ⟨?_, ?_⟩
    · intro more s'' hb
      rw [hjoin, hb]
      rfl
    · intro e s'' hb
      obtain ⟨line, source, rfl⟩ := run_error r hb
      refine ⟨line, source, rfl, ?_⟩
      rw [hjoin, hb]
      rfl
  · intro e s' h
    refine ⟨?_, ?_⟩
    · rw [expand_eq_steps, h]
      rfl
    · rw [tokenize_eq] at h
      exact expand_join_of_error r b h

/-- A value and an alignment are handed down. -/
theorem expand_join_assigned :
    let r := Resolver.bindings
    let first : Text := "[[[SET k=v]]][[[>]]]x".toList
    let state : Bindings Value := ⟨[(['k'], .text ['v'])]⟩
    expand r (first ++ '\n' :: "[[[k]]]".toList) .empty = (.ok [['x'], ['v']], state) ∧
      expand r (first ++ '\n' :: "[[[n]]]".toList) .empty =
        (.error (.atLine 2 (.unknownKey ['n'])), state) ∧
      expand r ("[[[ENDIF]]]".toList ++ '\n' :: first) .empty =
        (.error (.atLine 1 .unmatchedEndif), .empty) := by
  intro r first state
  have ha : expand r first .empty = (.ok [['x']], state) := by
    rw [expand, tokenize_line rfl]
    rfl
  have hb : expand r "[[[k]]]".toList state = (.ok [['v']], state) := by
    rw [expand, tokenize_line rfl]
    rfl
  have hn : expand r "[[[n]]]".toList state = (.error (.atLine 1 (.unknownKey ['n'])), state) := by
    rw [expand, tokenize_line rfl]
    rfl
  have he : steps r (tokenize "[[[ENDIF]]]".toList) .start .empty =
      (.error (.atLine 1 .unmatchedEndif), .empty) := by
    rw [tokenize_line rfl]
    rfl
  refine ⟨?_, ?_, ?_⟩
  · have happly : ∀ line marker, (expand r "[[[k]]]".toList state).1 ≠
        .error (.atLine line (.unbalancedAlignment marker)) := by
      rw [hb]
      simp
    exact ((expand_join r first "[[[k]]]".toList .empty).1 _ _ ha (.inr happly)).1 _ _ hb
  · have happly : ∀ line marker, (expand r "[[[n]]]".toList state).1 ≠
        .error (.atLine line (.unbalancedAlignment marker)) := by
      rw [hn]
      simp
    obtain ⟨line, source, h, hjoin⟩ :=
      ((expand_join r first "[[[n]]]".toList .empty).1 _ _ ha (.inr happly)).2 _ _ hn
    cases h
    exact hjoin
  · exact ((expand_join r "[[[ENDIF]]]".toList first .empty).2 _ _ he).2

end Stencil
