import Stencil.Proofs.Machine.Refusal
import Stencil.Proofs.Machine.Settled
import Stencil.Proofs.Scan.Position
import Stencil.Resolver.Map
import Stencil.Resolver.Members

/-! Where a failed expansion says that it has failed. One line number is put around the error that
was raised: that of the refused token, or the last one when blocks are left open. -/

namespace Stencil

open Lines

/-- The number of lines around the root of an error. -/
def TemplateError.wrappers : TemplateError → Nat
  | atLine _ source => source.wrappers + 1
  | _ => 0

theorem TemplateError.root_of_wrappers {e : TemplateError} (h : e.wrappers = 0) : e.root = e := by
  cases e with
  | atLine line source => simp [wrappers] at h
  | _ => rfl

/-- Whether a token opens a block. -/
def Token.isIf : Token → Bool
  | ifThen _ _ => true
  | _ => false

namespace Machine

variable {σ : Type} {r : Resolver σ} {m n : Machine} {s t : σ} {token : Token}

/-! ## The number of open blocks -/

theorem turn_depth {mark : Mark} {blocks : List Scope} (h : Turn r m s mark blocks t) :
    blocks.length + [mark.token].count .endIf =
      m.blocks.length + [mark.token].countP Token.isIf := by
  cases h with
  | opened h hl => rfl
  | buried h => rfl
  | asked h hl => simp [h, Mark.token, Token.isIf]
  | elseIfPast h hs => simp [h, Mark.token, Token.isIf]
  | reached h => simp [h, Mark.token, Token.isIf]
  | otherwisePast h hs => simp [h, Mark.token, Token.isIf]
  | closed h => simp [h, Mark.token, Token.isIf]

theorem step_depth (h : Step r m s token n t) :
    n.blocks.length + [token].count .endIf = m.blocks.length + [token].countP Token.isIf := by
  cases h with
  | mark h => exact turn_depth h
  | passed hp hn h => cases token <;> first | rfl | simp [Token.mark?] at hp
  | expand h hl =>
      rw [(expansion_frame m _).1]
      rfl
  | _ => rfl

/-- A run has as many blocks open as it has met conditions, less those that it has seen closed. -/
theorem steps_depth {tokens : List Token} (h : steps r (ofTokens tokens) m s = (.ok n, t)) :
    n.blocks.length + tokens.count .endIf = m.blocks.length + tokens.countP Token.isIf := by
  induction tokens generalizing m s with
  | nil =>
      obtain ⟨rfl, rfl⟩ := ok_inj.mp h
      rfl
  | cons token tokens ih =>
      obtain ⟨k, u, hs, h⟩ := (steps_cons_eq_ok r).mp h
      have hone := step_depth hs
      have hrest := ih h
      rw [← List.singleton_append, List.count_append, List.countP_append]
      omega

/-! ## The line of an error -/

/-- The errors of the machine itself are not at a line yet. -/
theorem Objection.wrappers {e : TemplateError} (h : Objection m token e) : e.wrappers = 0 := by
  cases h with
  | reference h hp =>
      obtain rfl := Reference.parse_eq_error hp
      rfl
  | _ => rfl

end Machine

/-- The resolver gives the error for an answer. -/
def Resolver.Fails {σ : Type} (r : Resolver σ) (e : TemplateError) : Prop :=
  (∃ key params context s s', r.resolve key params context s = (.error e, s')) ∨
    ∃ name text s s', r.assign name text s = (.error e, s')

/-- The expansion of the template is stopped, at a line, by an error, in a state of the resolver.
What stops it is an item of the template behind `before`, or the end of a template with more
conditions than there are ends of blocks. -/
inductive Stops {σ : Type} (r : Resolver σ) (template : Text) (s : σ) :
    Nat → TemplateError → σ → Prop where
  | raised {before : Text} {front : List Token} {item : Item} {rest : List Item} {m : Machine}
      {t s' : σ} {source : TemplateError}
      (hitems : tokenize template = ofTokens front ++ item :: rest)
      (hplace : StandsAt template before front item)
      (hfront : Machine.steps r (ofTokens front) .start s = (.ok m, t))
      (h : Machine.Raised r m t item source s') :
      Stops r template s (1 + before.count '\n') source s'
  | dangling {tokens : List Token} {m : Machine} {s' : σ}
      (hitems : tokenize template = ofTokens tokens)
      (htokens : Machine.steps r (ofTokens tokens) .start s = (.ok m, s'))
      (h : tokens.count .endIf < tokens.countP Token.isIf) :
      Stops r template s (1 + template.count '\n')
        (.danglingIf (tokens.countP Token.isIf - tokens.count .endIf)) s'

/-- The error has come out of expansions, one within the other, as many as `depth`. The innermost
one was stopped by `source`, each of the others by the error that came out of the one within it. -/
inductive Nested : Nat → TemplateError → TemplateError → Prop where
  | here {source : TemplateError} : Nested 0 source source
  | expanded {σ : Type} {r : Resolver σ} {template : Text} {s s' : σ} {depth line : Nat}
      {source inner e : TemplateError} (h : Nested depth source inner)
      (hs : Stops r template s line inner s') (he : expand r template s = (.error e, s')) :
      Nested (depth + 1) source e

section

variable {σ : Type} {r : Resolver σ} {template : Text} {s s' : σ} {line : Nat}
  {e source : TemplateError}

/-- The line number at a token is known from the template in front of it. -/
theorem Machine.line_before {before : Text} {front : List Token} {item : Item} {m : Machine} {t : σ}
    (hplace : StandsAt template before front item)
    (hfront : Machine.steps r (ofTokens front) .start s = (.ok m, t)) :
    m.line = 1 + before.count '\n' := by
  obtain ⟨after, -, hbefore, -⟩ := hplace
  rw [Machine.steps_line r hfront, Machine.newlines_ofTokens, hbefore.count]
  rfl

/-- The end of a template with as many blocks left open as it lacks ends of blocks. The line break
at the end has moved the line number past the last line. -/
theorem Machine.finish_dangling {tokens : List Token} {m : Machine}
    (hitems : tokenize template = ofTokens tokens)
    (htokens : Machine.steps r (ofTokens tokens) .start s = (.ok m, s')) :
    m.blocks.length = tokens.countP Token.isIf - tokens.count .endIf ∧
      max (m.line - 1) 1 = 1 + template.count '\n' := by
  have hdepth := Machine.steps_depth htokens
  have hline := Machine.steps_line r htokens
  rw [tokenize_eq] at hitems
  rw [Machine.newlines_ofTokens, (items_tokens hitems).1] at hline
  simp only [Machine.start, List.length_nil] at hdepth hline
  omega

theorem Stops.execution (h : Stops r template s line source s') :
    expand r template s = (.error (.atLine line source), s') := by
  rw [Machine.expand_eq_steps]
  cases h with
  | raised hitems hplace hfront h =>
      have hsteps := Machine.steps_eq_error.mpr ⟨_, _, _, _, _, _, hitems, hfront, h, rfl⟩
      rw [hsteps, Machine.chain_error, Machine.line_before hplace hfront]
  | dangling hitems htokens h =>
      obtain ⟨hblocks, hline⟩ := Machine.finish_dangling hitems htokens
      rw [hitems, htokens, Machine.chain_ok, Machine.finish, hline, hblocks, if_neg]
      rw [List.isEmpty_iff]
      rintro hnil
      rw [hnil] at hblocks
      simp only [List.length_nil] at hblocks
      omega

theorem stops_of_expand (h : expand r template s = (.error e, s')) :
    ∃ line source, e = .atLine line source ∧ Stops r template s line source s' := by
  rw [Machine.expand_eq_steps] at h
  cases hsteps : Machine.steps r (tokenize template) .start s with
  | mk result t =>
      rw [hsteps] at h
      cases result with
      | error error =>
          obtain ⟨rfl, rfl⟩ : error = e ∧ t = s' := by simpa using h
          obtain ⟨front, item, rest, m, u, source, hitems, hfront, hraised, rfl⟩ :=
            Machine.steps_eq_error.mp hsteps
          obtain ⟨tokens, rfl⟩ := Machine.tokens_of_steps hfront
          have htemplate := hitems
          rw [tokenize_eq] at htemplate
          obtain ⟨before, hplace⟩ := placed_items template tokens item rest htemplate
          rw [Machine.line_before hplace hfront]
          exact ⟨_, _, rfl, .raised hitems hplace hfront hraised⟩
      | ok m =>
          obtain ⟨hfinish, rfl⟩ := Prod.mk.inj h
          obtain ⟨tokens, hitems⟩ := Machine.tokens_of_steps hsteps
          rw [hitems] at hsteps
          obtain ⟨hblocks, hline⟩ := Machine.finish_dangling hitems hsteps
          unfold Machine.finish at hfinish
          split at hfinish
          · simp at hfinish
          · rename_i hopen
            rw [hline, hblocks] at hfinish
            refine ⟨_, _, (Except.error.inj hfinish).symm, .dangling hitems hsteps ?_⟩
            have hpos : m.blocks.length ≠ 0 := by simpa using hopen
            omega

theorem Stops.wrappers (h : Stops r template s line source s') :
    source.wrappers = 0 ∨ r.Fails source := by
  cases h with
  | dangling hitems htokens h => exact .inl rfl
  | @raised _ _ item _ _ _ _ _ hitems hplace hfront h =>
      cases h with
      | scanned =>
          have hmem : .error source ∈ items template := by simp [← tokenize_eq, hitems]
          obtain ⟨line, -, hmem⟩ := mem_items hmem
          obtain ⟨reason, rfl⟩ := error_mem_ofLine hmem
          exact .inl rfl
      | refused h =>
          cases h with
          | own h => exact .inl h.wrappers
          | unanswered h hp hr => exact .inr (.inl ⟨_, _, _, _, _, hr⟩)
          | unassigned h ha hr => exact .inr (.inr ⟨_, _, _, _, hr⟩)

end

theorem Nested.wrappers {depth : Nat} {source e : TemplateError} (h : Nested depth source e) :
    e.wrappers = depth + source.wrappers ∧ e.root = source.root := by
  induction h with
  | here => exact ⟨(Nat.zero_add _).symm, rfl⟩
  | @expanded _ _ _ _ _ depth line source inner e h hs he ih =>
      obtain ⟨hwrappers, hroot⟩ := ih
      obtain rfl : .atLine line inner = e := by simpa [hs.execution] using he
      refine ⟨?_, hroot⟩
      rw [TemplateError.wrappers, hwrappers, Nat.add_right_comm]

/-- An expansion fails with the error that stops it, at one line: one more than the line breaks in
front of the token at which it stops, or in the template when blocks are left open at its end. An
error that is at a line already was given by the resolver. Hence an error that has come out of
expansions within expansions has one more line for each of them, and its root stays. -/
theorem expand_error_located {σ : Type} (r : Resolver σ) (template : Text) (s : σ) :
    (∀ e s', expand r template s = (.error e, s') ↔
      ∃ line source, e = .atLine line source ∧ Stops r template s line source s') ∧
    (∀ line source s', Stops r template s line source s' →
      source.wrappers = 0 ∨ r.Fails source) ∧
    ∀ depth source e, Nested depth source e →
      e.wrappers = depth + source.wrappers ∧ e.root = source.root ∧
        (source.wrappers = 0 → e.root = source) := by
  refine ⟨?_, fun _ _ _ h => h.wrappers, ?_⟩
  · intro e s'
    refine ⟨stops_of_expand, ?_⟩
    rintro ⟨line, source, rfl, h⟩
    exact h.execution
  · intro depth source e h
    obtain ⟨hwrappers, hroot⟩ := h.wrappers
    exact ⟨hwrappers, hroot, fun hsource => hroot.trans (TemplateError.root_of_wrappers hsource)⟩

/-- A member that expands a template of its own fails on the second line of it, which is met on the
third line of the template around it. -/
theorem expand_error_located_nested :
    let missing : TemplateError := .unknownKey ['k']
    let inner : Text := "x\n[[[k]]]".toList
    let call : List Text → Context → Unit → Except TemplateError (Option Value) × Unit :=
      fun _ _ u => ((expand .bindings inner .empty).1.map fun lines => some (.lines lines), u)
    let r : Resolver (Members Unit) := .members
    let members : Members Unit := ⟨⟨[], 0⟩, ⟨[(['c'], .callable call)]⟩, ()⟩
    let outer : Text := "\n\n[[[c]]]".toList
    let e : TemplateError := .atLine 3 (.atLine 2 missing)
    expand r outer members = (.error e, members) ∧
      Stops .bindings inner .empty 2 missing .empty ∧
      Stops r outer members 3 (.atLine 2 missing) members ∧ r.Fails (.atLine 2 missing) ∧
      e.wrappers = 2 ∧ e.root = missing := by
  intro missing inner call r members outer e
  have hinner : expand .bindings inner .empty = (.error (.atLine 2 missing), .empty) := by
    rw [expand, tokenize_lines rfl, tokenize_line rfl]
    rfl
  have hcall : r.resolve ['c'] [] ⟨[], 0⟩ members = (.error (.atLine 2 missing), members) := by
    change ((expand .bindings inner .empty).1.map (some <| Value.lines ·), members) = _
    rw [hinner]
    rfl
  have houter : expand r outer members = (.error e, members) := by
    have hfront : Machine.steps r (ofTokens [.newline, .newline]) .start members =
        (.ok ⟨⟨[[], []], [], 0⟩, [], [], 3, false⟩, members) := rfl
    have hraised : Machine.Raised r ⟨⟨[[], []], [], 0⟩, [], [], 3, false⟩ members
        (.ok (.expand ['c'])) (.atLine 2 missing) members :=
      .refused (.unanswered (.expand rfl) rfl hcall)
    rw [Machine.expand_eq_steps, tokenize_lines rfl, tokenize_lines rfl, tokenize_line rfl]
    exact congrArg (Machine.chain · _)
      (Machine.steps_eq_error.mpr ⟨_, _, _, _, _, _, rfl, hfront, hraised, rfl⟩)
  have hin := (expand_error_located .bindings inner .empty).1
  have hout := expand_error_located r outer members
  obtain ⟨line, source, hline, hstops⟩ := (hin _ _).mp hinner
  obtain ⟨rfl, rfl⟩ := TemplateError.atLine.inj hline
  obtain ⟨line, source, hline, hstops'⟩ := (hout.1 _ _).mp houter
  obtain ⟨rfl, rfl⟩ := TemplateError.atLine.inj hline
  have hfails : r.Fails (.atLine 2 missing) :=
    (hout.2.1 _ _ _ hstops').resolve_left (by simp [TemplateError.wrappers])
  obtain ⟨hwrappers, -, hroot⟩ :=
    hout.2.2 2 missing e (.expanded (.expanded .here hstops hinner) hstops' houter)
  exact ⟨houter, hstops, hstops', hfails, hwrappers, hroot rfl⟩

end Stencil
