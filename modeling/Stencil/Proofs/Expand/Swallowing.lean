import Mathlib.Data.List.Basic
import Mathlib.Data.List.Induction
import Stencil.Proofs.Machine.Settled
import Stencil.Proofs.Scan.LineEnds
import Stencil.Resolver.Map

/-! Which line breaks are swallowed. The last token of a line that is not blank text decides: it
must be a directive that adds nothing, and stand on a blank line. -/

namespace Stencil

open Lines

theorem Value.isEmpty_iff {value : Value} :
    value.isEmpty = true ↔ value = .text [] ∨ value = .lines [] := by
  cases value <;> simp [isEmpty]

namespace Machine

variable {σ : Type} {r : Resolver σ} {m n : Machine} {s t : σ} {token : Token}

/-! ## Directives that add nothing -/

/-- The token opens, divides or closes a block, or it is executed and is an assignment or the
expansion of an absent or empty value. -/
def Adjunct (r : Resolver σ) (m : Machine) (s : σ) : Token → Prop
  | .ifThen _ _ | .elseIf _ _ | .otherwise | .endIf => True
  | .set _ => m.active = true
  | .expand content => m.active = true ∧
      ∃ v, (lookup r m content s).1 = .ok v ∧ ∀ value ∈ v, value = .text [] ∨ value = .lines []
  | _ => False

theorem adjunct_mark (mark : Mark) : Adjunct r m s mark.token := by
  cases mark <;> trivial

theorem not_adjunct_passed (hp : token.mark? = none) (h : m.active = false) :
    ¬ Adjunct r m s token := by
  cases token <;> simp_all [Adjunct, Token.mark?]

theorem adjunct_expand {content : Text} {v : Option Value} (h : m.active = true)
    (hl : lookup r m content s = (.ok v, t)) :
    Adjunct r m s (.expand content) ↔ ∀ value ∈ v, value.isEmpty = true := by
  simp [Adjunct, h, hl, Value.isEmpty_iff]

/-! ## One token -/

/-- Behind a token other than blank text the line break waits to be swallowed if the token adds
nothing and the line is blank. -/
theorem swallow_step (h : Step r m s token n t) (hn : token ≠ .newline)
    (hb : token.isBlankText = false) :
    n.swallow = true ↔ Adjunct r m s token ∧ n.output.isBlank = true := by
  cases h with
  | swallowed h => exact (hn rfl).elim
  | newline h => exact (hn rfl).elim
  | mark h => exact (and_iff_right (adjunct_mark _)).symm
  | passed hp hn h =>
      rw [hb, Bool.and_false]
      exact iff_of_false (by simp) fun ha => not_adjunct_passed hp h ha.1
  | @text text h =>
      have hblank : text.allBlank = false := hb
      rw [hblank, Bool.and_false]
      exact iff_of_false (by simp) fun ha => ha.1
  | @expand content v _ h hl =>
      rw [adjunct_expand h hl]
      cases v with
      | none => exact (and_iff_right (by simp)).symm
      | some value =>
          rw [expansion]
          split
          · rename_i hv
            exact (and_iff_right (by simpa using hv)).symm
          · rename_i hv
            exact iff_of_false (by simp [withOutput]) fun ha => hv (ha.1 value rfl)
  | set h ha hr => exact (and_iff_right h).symm
  | pushAlign h => exact iff_of_false (by simp [withAlignments]) fun ha => ha.1
  | align h ha => exact iff_of_false (by simp [withOutput]) fun ha => ha.1
  | popAlign h ha => exact iff_of_false (by simp [withAlignments]) fun ha => ha.1

/-- Blank text leaves a line break waiting or not, as it was. -/
theorem swallow_blankText (h : Step r m s token n t) (hb : token.isBlankText = true) :
    n.swallow = m.swallow := by
  cases h with
  | passed hp hn h => simp [hb]
  | @text text h =>
      have hblank : text.allBlank = true := hb
      simp [hblank]
  | @mark mark _ _ h => cases mark <;> simp [Mark.token, Token.isBlankText] at hb
  | _ => simp [Token.isBlankText] at hb

/-! ## The tokens of a line -/

/-- Of the tokens that are met from a machine on, the last one that is not blank text adds nothing
and leaves the line being built blank. -/
def EndsInAdjunct (r : Resolver σ) (m : Machine) (s : σ) (tokens : List Token) : Prop :=
  ∃ before token blanks k u k' u', tokens = before ++ token :: blanks ∧
    (∀ blank ∈ blanks, blank.isBlankText = true) ∧ token.isBlankText = false ∧
    steps r (ofTokens before) m s = (.ok k, u) ∧ k.step r token u = (.ok k', u') ∧
    Adjunct r k u token ∧ k'.output.isBlank = true

theorem endsInAdjunct_concat_blank (hb : token.isBlankText = true) {tokens : List Token} :
    EndsInAdjunct r m s (tokens ++ [token]) ↔ EndsInAdjunct r m s tokens := by
  constructor
  · rintro ⟨before, last, blanks, k, u, k', u', htokens, hblanks, hlast, hrest⟩
    rcases List.eq_nil_or_concat' blanks with rfl | ⟨blanks, blank, rfl⟩
    · obtain ⟨-, rfl⟩ : tokens = before ∧ token = last := by simpa using htokens
      simp [hb] at hlast
    · rw [← List.cons_append, ← List.append_assoc] at htokens
      obtain ⟨rfl, -⟩ := List.append_inj' htokens rfl
      have hblanks' : ∀ blank ∈ blanks, blank.isBlankText = true := fun other hmem =>
        hblanks other (by simp [hmem])
      exact ⟨before, last, blanks, k, u, k', u', rfl, hblanks', hlast, hrest⟩
  · rintro ⟨before, last, blanks, k, u, k', u', rfl, hblanks, hrest⟩
    refine ⟨before, last, blanks ++ [token], k, u, k', u', by simp, ?_, hrest⟩
    simpa [or_imp, forall_and, hb] using hblanks

theorem endsInAdjunct_concat (hb : token.isBlankText = false) {tokens : List Token} {k : Machine}
    {u : σ} (hk : steps r (ofTokens tokens) m s = (.ok k, u))
    (h : k.step r token u = (.ok n, t)) :
    EndsInAdjunct r m s (tokens ++ [token]) ↔
      Adjunct r k u token ∧ n.output.isBlank = true := by
  constructor
  · rintro ⟨before, last, blanks, k₁, u₁, k', u', htokens, hblanks, hlast, hbefore, hstep, ha, ho⟩
    rcases List.eq_nil_or_concat' blanks with rfl | ⟨blanks, blank, rfl⟩
    · obtain ⟨rfl, rfl⟩ : tokens = before ∧ token = last := by simpa using htokens
      obtain ⟨rfl, rfl⟩ := ok_inj.mp (hk.symm.trans hbefore)
      obtain ⟨rfl, rfl⟩ := ok_inj.mp (h.symm.trans hstep)
      exact ⟨ha, ho⟩
    · rw [← List.cons_append, ← List.append_assoc] at htokens
      obtain ⟨-, hlast'⟩ := List.append_inj' htokens rfl
      have hblank := hblanks token (by simp [List.singleton_inj.mp hlast'])
      simp [hb] at hblank
  · rintro ⟨ha, ho⟩
    exact ⟨tokens, token, [], k, u, n, t, rfl, by simp, hb, hk, h, ha, ho⟩

/-- Behind the tokens of a line its line break waits to be swallowed if they end in a directive that
adds nothing. The last token decides unless it is blank text. -/
theorem swallow_steps {tokens : List Token} (hm : m.swallow = false) (hn : .newline ∉ tokens)
    (h : steps r (ofTokens tokens) m s = (.ok n, t)) :
    n.swallow = true ↔ EndsInAdjunct r m s tokens := by
  induction tokens using List.reverseRecOn generalizing n t with
  | nil =>
      obtain ⟨rfl, rfl⟩ := ok_inj.mp h
      refine iff_of_false (by simp [hm]) ?_
      rintro ⟨before, last, blanks, k, u, k', u', htokens, -⟩
      simp at htokens
  | append_singleton tokens token ih =>
      obtain ⟨hrest, hne⟩ : .newline ∉ tokens ∧ token ≠ .newline := by
        simpa [eq_comm] using hn
      obtain ⟨k, u, hk, hstep⟩ := steps_concat_eq_ok.mp h
      cases hb : token.isBlankText with
      | true => rw [swallow_blankText hstep hb, ih hrest hk, endsInAdjunct_concat_blank hb]
      | false => rw [swallow_step hstep hne hb, endsInAdjunct_concat hb hk hstep.execution]

/-! ## The lines of a template -/

/-- At the start of a line no line break waits to be swallowed. -/
theorem swallow_line_start {lines : List Text}
    (h : steps r (lines.flatMap ofLine) .start s = (.ok m, t)) : m.swallow = false := by
  obtain ⟨tokens, htokens⟩ := tokens_of_steps h
  obtain ⟨-, hlast⟩ := flatMap_ofLine_tokens htokens
  by_cases hlines : lines = []
  · subst hlines
    obtain ⟨rfl, rfl⟩ := ok_inj.mp h
    rfl
  · obtain ⟨front, rfl⟩ := hlast hlines
    rw [htokens] at h
    obtain ⟨k, u, -, hstep⟩ := steps_concat_eq_ok.mp h
    obtain ⟨rfl, -⟩ := newline_result hstep
    split
    · rfl
    · rfl

/-- A run over a template reads a line up to its line break: `start` is the machine at the start of
the line and `m` the one that meets the line break. -/
structure ReachesEnd (r : Resolver σ) (template : Text) (s : σ) (tokens : List Token)
    (start : Machine) (u : σ) (m : Machine) (t : σ) : Prop where
  line : ∃ above line, LineOf (template.splitOn '\n') above line tokens ∧
    steps r (above.flatMap ofLine) .start s = (.ok start, u)
  tokens : steps r (ofTokens tokens) start u = (.ok m, t)

variable {template : Text} {tokens : List Token} {start : Machine} {u : σ}

/-- The line breaks that a run meets are those at the ends of the lines that it reads. -/
theorem mem_visits_newline_iff : ⟨m, .newline, t⟩ ∈ visits r (tokenize template) .start s ↔
    ∃ tokens start u, ReachesEnd r template s tokens start u m t := by
  rw [mem_visits_iff, tokenize_eq]
  constructor
  · rintro ⟨front, rest, hitems, hsteps⟩
    obtain ⟨front, rfl⟩ := tokens_of_steps hsteps
    obtain ⟨above, line, tokens, hline, hfront⟩ := exists_line hitems
    rw [hfront, steps_append, chain_eq_ok] at hsteps
    obtain ⟨start, u, habove, htokens⟩ := hsteps
    exact ⟨tokens, start, u, ⟨⟨above, line, hline, habove⟩, htokens⟩⟩
  · rintro ⟨tokens, start, u, ⟨above, line, ⟨⟨below, hlines⟩, hline, -⟩, habove⟩, htokens⟩
    obtain ⟨front, hfront⟩ := tokens_of_steps habove
    refine ⟨ofTokens (front ++ tokens), untilFault (below.flatMap ofLine), ?_, ?_⟩
    · rw [items, ofText, ← hlines]
      simp only [List.flatMap_append, List.flatMap_singleton, hfront, hline]
      rw [← List.map_append, untilFault_ofTokens_append]
      simp
    · rw [ofTokens, List.map_append, steps_append, chain_eq_ok]
      rw [hfront] at habove
      exact ⟨start, u, habove, htokens⟩

theorem ReachesEnd.swallow (h : ReachesEnd r template s tokens start u m t) :
    m.swallow = true ↔ EndsInAdjunct r start u tokens := by
  obtain ⟨⟨above, line, hline, habove⟩, htokens⟩ := h
  exact swallow_steps (swallow_line_start habove) hline.single htokens

theorem ReachesEnd.settled (h : ReachesEnd r template s tokens start u m t) : Settled m := by
  obtain ⟨⟨above, line, hline, habove⟩, htokens⟩ := h
  exact (settled_start.steps habove).steps htokens

/-- A run meets a line break at the end of each line that it reads. It is swallowed if the last
token of the line that is not blank text adds nothing and stands on a blank line: the blanks that
have been written are dropped and no line is completed. Otherwise, in an executed branch, it
completes one line, without the blanks at its end; in a skipped one it leaves the output as it
is. -/
theorem newline_reachesEnd (r : Resolver σ) (template : Text) (s : σ) :
    (∀ m t, ⟨m, .newline, t⟩ ∈ visits r (tokenize template) .start s ↔
      ∃ tokens start u, ReachesEnd r template s tokens start u m t) ∧
    ∀ tokens start u m t, ReachesEnd r template s tokens start u m t →
      (m.swallow = true ↔ EndsInAdjunct r start u tokens) ∧
      ∃ output, m.step r .newline t =
          (.ok { m with output, line := m.line + 1, swallow := false }, t) ∧
        (EndsInAdjunct r start u tokens →
          m.output.isBlank = true ∧ output = ⟨m.output.lines, [], 0⟩) ∧
        (¬ EndsInAdjunct r start u tokens → m.active = true →
          output = ⟨m.output.lines ++ [Text.trimEnd m.output.current], [], 0⟩) ∧
        (¬ EndsInAdjunct r start u tokens → m.active = false → output = m.output) := by
  refine ⟨fun m t => mem_visits_newline_iff, ?_⟩
  intro tokens start u m t h
  rw [← h.swallow]
  refine ⟨Iff.rfl, ?_⟩
  cases hswallow : m.swallow with
  | true =>
      have hblank := h.settled hswallow
      refine ⟨m.output.discard, ?_, fun _ => ⟨hblank, rfl⟩, by simp, by simp⟩
      rw [step_newline_of_swallow hswallow, swallowNewline, if_pos hblank]
  | false =>
      refine ⟨_, step_newline hswallow, by simp, fun _ ha => ?_, fun _ ha => ?_⟩
      · exact if_pos ha
      · exact if_neg (by simp [ha])

/-- A condition that does not hold carries a line on, white space behind the end of the block goes
with the line break, and the line of an empty value is dropped. -/
theorem newline_reachesEnd_empty :
    let template : Text := "x[[[IF f]]]y\n[[[ENDIF]]] \n  [[[e]]] ".toList
    let values : Bindings Value := ⟨[(['f'], .bool false), (['e'], .text [])]⟩
    let r : Resolver (Bindings Value) := .bindings
    let first : List Token := [.text ['x'], .ifThen ['f'] none, .text ['y']]
    let second : List Token := [.endIf, .text [' ']]
    let third : List Token := [.text "  ".toList, .expand ['e'], .text [' ']]
    let skipped : Machine := ⟨⟨[], ['x'], 1⟩, [.inactive], [], 1, false⟩
    let carried : Machine := ⟨⟨[], ['x'], 1⟩, [.inactive], [], 2, false⟩
    let closed : Machine := ⟨⟨[], "x ".toList, 2⟩, [], [], 2, false⟩
    let completed : Machine := ⟨⟨[['x']], [], 0⟩, [], [], 3, false⟩
    let waiting : Machine := ⟨⟨[['x']], "   ".toList, 3⟩, [], [], 3, true⟩
    let dropped : Machine := ⟨⟨[['x']], [], 0⟩, [], [], 4, false⟩
    (ReachesEnd r template values first .start values skipped values ∧
      ¬ EndsInAdjunct r .start values first ∧
      skipped.step r .newline values = (.ok carried, values)) ∧
    (ReachesEnd r template values second carried values closed values ∧
      ¬ EndsInAdjunct r carried values second ∧
      closed.step r .newline values = (.ok completed, values)) ∧
    ReachesEnd r template values third completed values waiting values ∧
      EndsInAdjunct r completed values third ∧
      waiting.step r .newline values = (.ok dropped, values) := by
  intro template values r first second third skipped carried closed completed waiting dropped
  have hlines : template.splitOn '\n' =
      ["x[[[IF f]]]y".toList, "[[[ENDIF]]] ".toList, "  [[[e]]] ".toList] := rfl
  have hfirst : ofLine "x[[[IF f]]]y".toList = ofTokens (first ++ [.newline]) := by
    rw [@ofLine_of_directive _ ['x'] _ "IF f".toList ['y'] rfl rfl, @ofLine_of_unmarked ['y'] rfl]
    rfl
  have hsecond : ofLine "[[[ENDIF]]] ".toList = ofTokens (second ++ [.newline]) := by
    rw [@ofLine_of_directive _ [] _ "ENDIF".toList [' '] rfl rfl, @ofLine_of_unmarked [' '] rfl]
    rfl
  have hthird : ofLine "  [[[e]]] ".toList = ofTokens (third ++ [.newline]) := by
    rw [@ofLine_of_directive _ "  ".toList _ ['e'] [' '] rfl rfl, @ofLine_of_unmarked [' '] rfl]
    rfl
  have hline := (newline_reachesEnd r template values).2
  have h₁ : ReachesEnd r template values first .start values skipped values :=
    ⟨⟨[], _, ⟨⟨_, hlines.symm⟩, hfirst, by decide⟩, rfl⟩, rfl⟩
  have h₂ : ReachesEnd r template values second carried values closed values := by
    refine ⟨⟨["x[[[IF f]]]y".toList], _, ⟨⟨_, hlines.symm⟩, hsecond, by decide⟩, ?_⟩, rfl⟩
    rw [List.flatMap_singleton, hfirst]
    rfl
  have h₃ : ReachesEnd r template values third completed values waiting values := by
    refine ⟨⟨["x[[[IF f]]]y".toList, "[[[ENDIF]]] ".toList], _,
      ⟨⟨_, hlines.symm⟩, hthird, by decide⟩, ?_⟩, rfl⟩
    rw [List.flatMap_cons, List.flatMap_singleton, hfirst, hsecond]
    rfl
  obtain ⟨hswallow₁, _, hstep₁, -, -, hcarried⟩ := hline _ _ _ _ _ h₁
  obtain ⟨hswallow₂, _, hstep₂, -, hcompleted, -⟩ := hline _ _ _ _ _ h₂
  obtain ⟨hswallow₃, _, hstep₃, hdropped, -⟩ := hline _ _ _ _ _ h₃
  have hno₁ : ¬ EndsInAdjunct r .start values first := fun h => by
    simpa [skipped] using hswallow₁.mpr h
  have hno₂ : ¬ EndsInAdjunct r carried values second := fun h => by
    simpa [closed] using hswallow₂.mpr h
  have hends : EndsInAdjunct r completed values third := hswallow₃.mp rfl
  refine ⟨⟨h₁, hno₁, ?_⟩, ⟨h₂, hno₂, ?_⟩, h₃, hends, ?_⟩
  · rw [hstep₁, hcarried hno₁ rfl]
  · rw [hstep₂, hcompleted hno₂ rfl]
    rfl
  · rw [hstep₃, (hdropped hends).2]

end Machine

end Stencil
