import Stencil.Proofs.Machine.Settled
import Stencil.Proofs.Output.Column
import Stencil.Proofs.Resolver.Calls
import Stencil.Resolver.Map

/-! What holds of the machine between any two tokens: the column is the width of the line being
built, alignments are made of spaces and tabs, and the scopes are in order. -/

namespace Stencil

open Text

namespace Machine

variable {σ : Type} {r : Resolver σ} {m n : Machine} {s t : σ} {token : Token}

/-! ## Scopes -/

/-- The scopes of the open blocks and, at the bottom, that of the template around them. The machine
keeps the blocks alone, so the scope at the bottom is active by construction, whatever its steps. -/
def scopes (m : Machine) : List Scope := m.blocks ++ [.active]

/-- Around the first scope that is not active all are active, and inside it all are done. The
innermost scope comes first. -/
inductive Ordered : List Scope → Prop where
  | active {scopes : List Scope} (h : ∀ scope ∈ scopes, scope = .active) : Ordered scopes
  | skipped {inner outer : List Scope} {first : Scope} (hi : ∀ scope ∈ inner, scope = .done)
      (hf : first ≠ .active) (ho : ∀ scope ∈ outer, scope = .active) :
      Ordered (inner ++ first :: outer)

theorem ordered_cons_iff {scope : Scope} {outer : List Scope} :
    Ordered (scope :: outer) ↔
      (∀ other ∈ outer, other = .active) ∨ scope = .done ∧ Ordered outer := by
  constructor
  · intro h
    generalize hs : scope :: outer = scopes at h
    cases h with
    | active h =>
        subst hs
        exact .inl fun other hmem => h other (List.mem_cons_of_mem _ hmem)
    | @skipped inner around first hi hf ho =>
        cases inner with
        | nil =>
            obtain ⟨rfl, rfl⟩ := List.cons.inj hs
            exact .inl ho
        | cons d inner =>
            obtain ⟨rfl, rfl⟩ := List.cons.inj hs
            exact .inr ⟨hi _ (by simp),
              .skipped (fun other hmem => hi other (List.mem_cons_of_mem _ hmem)) hf ho⟩
  · rintro (h | ⟨rfl, h⟩)
    · by_cases hs : scope = .active
      · refine .active fun other hmem => ?_
        rcases List.mem_cons.mp hmem with rfl | hmem
        · exact hs
        · exact h other hmem
      · exact @Ordered.skipped [] _ _ (by simp) hs h
    · cases h with
      | active h => exact @Ordered.skipped [] _ _ (by simp) (by simp) h
      | @skipped inner around first hi hf ho =>
          refine @Ordered.skipped (.done :: inner) _ _ ?_ hf ho
          simpa using hi

theorem Ordered.tail {scope : Scope} {outer : List Scope} (h : Ordered (scope :: outer)) :
    Ordered outer := by
  rcases ordered_cons_iff.mp h with h | ⟨-, h⟩
  · exact .active h
  · exact h

/-- A block in which no branch has been executed, or one is being executed, stands in executed
branches only. -/
theorem Ordered.outer_active {scope : Scope} {outer : List Scope} (h : Ordered (scope :: outer))
    (hs : scope ≠ .done) : ∀ other ∈ outer, other = .active := by
  rcases ordered_cons_iff.mp h with h | ⟨hd, -⟩
  · exact h
  · exact (hs hd).elim

theorem Ordered.head_done {scope : Scope} {outer : List Scope} (h : Ordered (scope :: outer)) :
    Ordered (.done :: outer) := ordered_cons_iff.mpr (.inr ⟨rfl, h.tail⟩)

theorem scopes_cons (m : Machine) : ∃ scope outer, m.scopes = scope :: outer ∧ m.scope = scope := by
  unfold scopes scope
  cases m.blocks with
  | nil => exact ⟨_, _, rfl, rfl⟩
  | cons scope outer => exact ⟨scope, outer ++ [.active], rfl, rfl⟩

/-- A branch is executed only within executed branches. -/
theorem active_iff (h : Ordered m.scopes) :
    m.active = true ↔ ∀ scope ∈ m.scopes, scope = .active := by
  obtain ⟨scope, outer, hscopes, hscope⟩ := m.scopes_cons
  rw [active, hscope, hscopes, decide_eq_true_iff]
  rw [hscopes] at h
  constructor
  · rintro rfl
    simpa using h.outer_active (by simp)
  · intro hall
    exact hall scope (by simp)

theorem Ordered.turn {mark : Mark} {blocks : List Scope} (h : Ordered m.scopes)
    (ht : Turn r m s mark blocks t) : Ordered (m.withBlocks blocks).scopes := by
  unfold scopes at h
  change Ordered (blocks ++ [.active])
  cases ht with
  | opened ha hl => exact ordered_cons_iff.mpr (.inl ((active_iff h).mp ha))
  | buried ha => exact ordered_cons_iff.mpr (.inr ⟨rfl, h⟩)
  | asked hb hl =>
      rw [hb] at h
      exact ordered_cons_iff.mpr (.inl (h.outer_active (by simp)))
  | elseIfPast hb hs =>
      rw [hb] at h
      exact h.head_done
  | reached hb =>
      rw [hb] at h
      exact ordered_cons_iff.mpr (.inl (h.outer_active (by simp)))
  | otherwisePast hb hs =>
      rw [hb] at h
      exact h.head_done
  | closed hb =>
      rw [hb] at h
      exact h.tail

/-! ## One step -/

/-- What every token preserves. -/
structure Sound (m : Machine) : Prop where
  output : m.output.Tidy
  alignments : ∀ alignment ∈ m.alignments, Indenting alignment
  scopes : Ordered m.scopes
  settled : Settled m

theorem sound_start : Sound .start where
  output := Output.tidy_empty
  alignments := by simp [start]
  scopes := .active (by simp [scopes, start])
  settled := settled_start

theorem tidy_expansion (h : m.output.Tidy) (v : Option Value) : (m.expansion v).output.Tidy := by
  cases v with
  | none => exact h
  | some v =>
      rw [expansion]
      split
      · exact h
      · exact h.addValue v

theorem Sound.tidy (hm : Sound m) (h : Step r m s token n t) : n.output.Tidy := by
  cases h with
  | swallowed h =>
      unfold swallowNewline
      dsimp only
      split
      · exact Output.tidy_discard _
      · exact hm.output
  | newline h =>
      unfold Machine.newline
      dsimp only
      split
      · exact Output.tidy_endLine _
      · exact hm.output
  | mark h => exact hm.output
  | passed hp hn h => exact hm.output
  | text h => exact hm.output.addText _
  | expand h hl => exact tidy_expansion hm.output _
  | set h ha hr => exact hm.output
  | pushAlign h => exact hm.output
  | align h ha => exact hm.output.padTo (hm.alignments _ (by simp [ha]))
  | popAlign h ha => exact hm.output

theorem Sound.indenting (hm : Sound m) (h : Step r m s token n t) :
    ∀ alignment ∈ n.alignments, Indenting alignment := by
  cases h with
  | expand h hl =>
      rw [(expansion_frame m _).2.1]
      exact hm.alignments
  | pushAlign h =>
      intro alignment hmem
      rcases List.mem_cons.mp hmem with rfl | hmem
      · exact m.output.indenting_alignment
      · exact hm.alignments alignment hmem
  | popAlign h ha =>
      intro alignment hmem
      exact hm.alignments alignment (by rw [ha]; exact List.mem_cons_of_mem _ hmem)
  | _ => exact hm.alignments

theorem Sound.ordered (hm : Sound m) (h : Step r m s token n t) : Ordered n.scopes := by
  cases h with
  | mark h => exact hm.scopes.turn h
  | expand h hl =>
      unfold Machine.scopes
      rw [(expansion_frame m _).1]
      exact hm.scopes
  | _ => exact hm.scopes

theorem Sound.step (hm : Sound m) (h : Step r m s token n t) : Sound n :=
  ⟨hm.tidy h, hm.indenting h, hm.ordered h, hm.settled.step h⟩

/-! ## Runs -/

theorem sound_of_steps {items : List Item} (h : steps r items .start s = (.ok m, t)) : Sound m :=
  steps_preserve r Sound.step sound_start h

/-- A place in the output is given by the longest run of spaces and tabs that the line being built
starts with, and by the width of that line. -/
def PlacedAt (context : Context) (line : Text) : Prop :=
  LeadingRun line context.indentation ∧ context.column = line.length ∧
    context.indentation.length ≤ context.column

theorem Sound.placedAt (hm : Sound m) : PlacedAt m.output.context m.output.current :=
  ⟨m.output.leadingRun_indentation, hm.output.column, hm.output.length_indentation_le⟩

/-- Between any two tokens the column is the width of the line being built, which holds no line
break; the current alignment has that width and the recorded ones consist of spaces and tabs like
it; the scopes are in order, above the one at the bottom that is active by construction; and a line
break waits to be swallowed only on a blank line. Every value is asked for with the place at which
the output stands when its token is met. -/
theorem steps_sound (r : Resolver σ) (template : Text) (s : σ) :
    (∀ front m t, front <+: tokenize template → steps r front .start s = (.ok m, t) →
      (m.output.column = m.output.current.length ∧ '\n' ∉ m.output.current) ∧
      (Indenting m.output.alignment ∧ m.output.alignment.length = m.output.column ∧
        ∀ alignment ∈ m.alignments, Indenting alignment) ∧
      (m.scopes.getLast? = some .active ∧ Ordered m.scopes ∧
        (m.active = true ↔ ∀ scope ∈ m.scopes, scope = .active)) ∧
      (m.swallow = true → m.output.isBlank = true)) ∧
    ∀ key params context, .resolve key params context ∈ calls r template s →
      ∃ front token rest m t, tokenize template = front ++ .ok token :: rest ∧
        steps r front .start s = (.ok m, t) ∧
        .resolve key params context ∈ Visit.calls r ⟨m, token, t⟩ ∧
        PlacedAt context m.output.current := by
  refine ⟨?_, ?_⟩
  · intro front m t _ h
    have hm := sound_of_steps h
    exact ⟨⟨hm.output.column, hm.output.single⟩,
      ⟨m.output.indenting_alignment, hm.output.length_alignment, hm.alignments⟩,
      ⟨List.getLast?_concat, hm.scopes, active_iff hm.scopes⟩, hm.settled⟩
  · intro key params context hcall
    rw [calls_eq_visits] at hcall
    obtain ⟨⟨m, token, t⟩, hvisit, hmem⟩ := List.mem_flatMap.mp hcall
    obtain ⟨front, rest, hitems, hsteps⟩ := (mem_visits_iff r).mp hvisit
    refine ⟨front, token, rest, m, t, hitems, hsteps, hmem, ?_⟩
    rw [context_of_call hmem]
    exact (sound_of_steps hsteps).placedAt

/-- Inside a skipped block, behind a tab, a recorded alignment and the first line of a list. -/
theorem steps_sound_skipped :
    let r := Resolver.bindings
    let values : Bindings Value := ⟨[(['k'], .lines ["a", "", "b"]), (['n'], .bool false)]⟩
    let template : Text := "\t[[[>]]][[[k]]][[[IF n]]][[[IF m]]]".toList
    let front : List Item := Lines.ofTokens [.text ['\t'], .pushAlign, .expand ['k'],
      .ifThen ['n'] none]
    let m : Machine := ⟨⟨["\ta", ""], "\tb", 2⟩, [.inactive], ["\t"], 1, false⟩
    let context : Context := ⟨['\t'], 1⟩
    front <+: tokenize template ∧ steps r front .start values = (.ok m, values) ∧
      m.output.column = m.output.current.length ∧ m.output.alignment.length = m.output.column ∧
      Ordered m.scopes ∧ .resolve ['k'] [] context ∈ calls r template values ∧
      ∃ front token rest m t, tokenize template = front ++ .ok token :: rest ∧
        steps r front .start values = (.ok m, t) ∧
        .resolve ['k'] [] context ∈ Visit.calls r ⟨m, token, t⟩ ∧
        PlacedAt context m.output.current := by
  intro r values template front m context
  have hitems : tokenize template =
      front ++ Lines.ofTokens [.ifThen ['m'] none, .newline] := by
    rw [Lines.tokenize_line rfl]
    rfl
  have hfront : front <+: tokenize template := ⟨_, hitems.symm⟩
  have hsteps : steps r front .start values = (.ok m, values) := rfl
  have hcalls : calls r template values =
      [.resolve ['k'] [] context, .resolve ['n'] [] ⟨['\t'], 2⟩] := by
    rw [calls, expand, hitems]
    rfl
  have hmem : .resolve ['k'] [] context ∈ calls r template values := by simp [hcalls]
  obtain ⟨⟨hcolumn, -⟩, ⟨-, halignment, -⟩, ⟨-, hscopes, -⟩, -⟩ :=
    (steps_sound r template values).1 front m values hfront hsteps
  exact ⟨hfront, hsteps, hcolumn, halignment, hscopes, hmem,
    (steps_sound r template values).2 ['k'] [] context hmem⟩

end Machine

end Stencil
