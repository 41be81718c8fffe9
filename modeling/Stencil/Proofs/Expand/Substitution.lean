import Stencil.Proofs.Output.Pieces
import Stencil.Proofs.Resolver.Assignments
import Stencil.Proofs.Scan.Substitution

/-! Expanding a key that is bound to a text of one line is the same as writing the text into the
template. The two templates have different tokens, since the text is read together with the text
around it; what makes the runs equal is that text may be handed to the machine in any pieces. -/

namespace Stencil

open Lines

namespace Machine

variable {σ : Type} {r : Resolver σ} {m : Machine} {s : σ}

/-! ## Text in pieces -/

/-- The machine after a text. Only an executed branch writes it, but any visible text ends the
waiting for a line break. -/
def afterText (m : Machine) (piece : Text) : Machine :=
  { m with
    output := if m.active then m.output.addText piece else m.output
    swallow := m.swallow && piece.allBlank }

theorem step_text (piece : Text) : m.step r (.text piece) s = (.ok (m.afterText piece), s) := by
  cases ha : m.active with
  | false =>
      rw [step_of_inactive rfl (by simp) ha, afterText, ha]
      rfl
  | true =>
      rw [step_text_of_active piece ha, afterText, ha]
      rfl

theorem afterText_append {piece : Text} (h : '\n' ∉ piece) (more : Text) :
    m.afterText (piece ++ more) = (m.afterText piece).afterText more := by
  have hactive : (m.afterText piece).active = m.active := rfl
  unfold afterText at hactive ⊢
  rw [hactive]
  cases m.active with
  | false => simp [Bool.and_assoc]
  | true => simp [Bool.and_assoc, Output.addText_append h]

/-- A text may be executed in two pieces. -/
theorem steps_literal_append {piece : Text} (h : '\n' ∉ piece) (more : Text) (items : List Item) :
    steps r (literal (piece ++ more) ++ items) m s =
      steps r (literal piece ++ (literal more ++ items)) m s := by
  cases piece with
  | nil => rfl
  | cons c piece =>
      cases more with
      | nil => simp [literal]
      | cons d more =>
          change steps r (.ok (.text ((c :: piece) ++ (d :: more))) :: items) m s =
            steps r (.ok (.text (c :: piece)) :: .ok (.text (d :: more)) :: items) m s
          simp only [steps_cons, step_text, located_ok, chain_ok, afterText_append h]

/-- Nothing behind the first fault is executed. -/
theorem steps_untilFault (items : List Item) :
    steps r (untilFault items) m s = steps r items m s := by
  rcases exists_tokens items with ⟨tokens, rfl⟩ | ⟨tokens, e, unread, rfl⟩
  · rw [untilFault_ofTokens]
  · rw [untilFault_ofTokens_append, untilFault_error, steps_append, steps_append]
    rfl

end Machine

/-! ## A key that stays bound -/

/-- The token is an assignment to the key. -/
def Token.Assigns (key : Text) : Token → Prop
  | set assignment => ∃ value, Assignment.read? assignment = some ⟨key, value⟩
  | _ => False

namespace Machine

variable {key text : Text} {values after : Bindings Value} {m n : Machine} {token : Token}
  {xs ys : List Item}

/-- Only an assignment to it changes what a key is bound to. -/
theorem find?_step (h : Step .bindings m values token n after) (ht : ¬ token.Assigns key) :
    after.find? key = values.find? key := by
  have hlookup {content : Text} {value : Option Value} {next : Bindings Value}
      (hl : lookup .bindings m content values = (.ok value, next)) : next = values := by
    rw [← lookup_stores Resolver.bindings_stores m content values, hl]
  cases h with
  | mark hturn =>
      cases hturn with
      | opened _ hl => rw [hlookup hl]
      | asked _ hl => rw [hlookup hl]
      | _ => rfl
  | expand _ hl => rw [hlookup hl]
  | @set assignment a _ _ ha hr =>
      obtain ⟨-, rfl⟩ := Prod.mk.inj hr
      have hne : key ≠ a.name := by
        rintro rfl
        exact ht ⟨a.value, ha⟩
      rw [Bindings.find?_insert, if_neg hne]
  | _ => rfl

/-- An expansion to a visible text is executed as the text is. -/
theorem step_expand_bound (hkey : '(' ∉ key) (htext : text.allBlank = false)
    (hbound : values.find? key = some (.text text)) :
    m.step .bindings (.expand key) values = (.ok (m.afterText text), values) := by
  cases ha : m.active with
  | false =>
      rw [step_of_inactive rfl (by simp) ha, afterText, ha, htext]
      rfl
  | true =>
      have hparse : Reference.parse key = .ok ⟨key, []⟩ := by
        rw [Reference.parse, Text.cut_eq_none_iff.mpr hkey]
      have hl : lookup .bindings m key values = (.ok (some (.text text)), values) := by
        rw [lookup, hparse]
        simp only [Resolver.bindings, hbound]
      have hne : text.isEmpty = false := by
        cases text with
        | nil => simp at htext
        | cons c text => rfl
      rw [(Step.expand ha hl).execution, afterText, ha, htext, expansion, Value.isEmpty, hne,
        Bool.and_false]
      rfl

/-- Two lists of items run alike wherever the key is bound to the text, unless the first one assigns
to the key. -/
def SameRun (key text : Text) (xs ys : List Item) : Prop :=
  (∀ token, .ok token ∈ untilFault xs → ¬ token.Assigns key) →
    ∀ m values, values.find? key = some (.text text) →
      steps .bindings xs m values = steps .bindings ys m values

theorem SameRun.error (e : TemplateError) : SameRun key text (.error e :: xs) (.error e :: ys) :=
  fun _ _ _ _ => rfl

/-- A token may be replaced by items that do the same. -/
theorem SameRun.replace (h : SameRun key text xs ys) {token : Token} {front : List Item}
    (hfront : ∀ m values, values.find? key = some (.text text) →
      steps .bindings front m values = steps .bindings [.ok token] m values) :
    SameRun key text (.ok token :: xs) (front ++ ys) := by
  intro hset m values hbound
  rw [untilFault_ok] at hset
  have hrest := h fun other hmem => hset other (List.mem_cons_of_mem _ hmem)
  rw [← List.singleton_append, steps_append, steps_append, hfront m values hbound]
  cases hsteps : steps .bindings [.ok token] m values with
  | mk result after =>
      cases result with
      | error e => rfl
      | ok n =>
          obtain ⟨k, _, hstep, hend⟩ := (steps_cons_eq_ok _).mp hsteps
          obtain ⟨rfl, rfl⟩ := ok_inj.mp hend
          have hafter := find?_step hstep (hset token (by simp))
          exact hrest k _ (hafter.trans hbound)

theorem SameRun.cons (h : SameRun key text xs ys) (token : Token) :
    SameRun key text (.ok token :: xs) (.ok token :: ys) :=
  @SameRun.replace _ _ _ _ h _ [.ok token] fun _ _ _ => rfl

theorem SameRun.literal (h : SameRun key text xs ys) (t : Text) :
    SameRun key text (literal t ++ xs) (literal t ++ ys) := by
  cases t with
  | nil => exact h
  | cons c t => exact h.cons _

/-- The text stands for the expansion. -/
theorem SameRun.value (h : SameRun key text xs ys) (hkey : '(' ∉ key)
    (htext : text.allBlank = false) :
    SameRun key text (.ok (.expand key) :: xs) (Lines.literal text ++ ys) := by
  refine h.replace fun m values hbound => ?_
  cases text with
  | nil => simp at htext
  | cons c text =>
      change steps .bindings [.ok (.text (c :: text))] m values = _
      rw [steps_cons, steps_cons, step_text, step_expand_bound hkey htext hbound]

/-! ## Lines -/

/-- A line with the text in place of the expansions runs as the line does. The text is read in one
token with the text before it and the text after it. -/
theorem SameRun.line (h : SameRun key text xs ys) (hkey : '(' ∉ key)
    (htext : text.allBlank = false) (hbreak : '\n' ∉ text) (hmark : '[' ∉ text) {line : Text}
    (hline : '\n' ∉ line) :
    SameRun key text (ofLine line ++ xs) (ofLine (substituteLine key text line) ++ ys) := by
  fun_induction ofLine line with
  | case1 line ho =>
      rw [substituteLine_of_unmarked ho, ofLine_of_unmarked ho, List.append_assoc,
        List.append_assoc]
      exact (h.cons .newline).literal line
  | case2 line before inner ho hc =>
      rw [substituteLine_of_unclosed ho hc, ofLine_of_unclosed ho hc, List.append_assoc,
        List.append_assoc]
      exact (SameRun.error _).literal before
  | case3 line before inner ho content after hc ih =>
      rw [(Text.breakOn_leftmost ho).eq, (Text.breakOn_leftmost hc).eq] at hline
      simp only [List.mem_append, not_or] at hline
      have hafter := ih hline.2.2
      rw [List.append_assoc]
      rcases ofLine_substituteLine hmark ho hc with ⟨ht, front, items, hrest, hread⟩ | ⟨-, hread⟩
      · rw [ht, hread]
        rw [hrest] at hafter
        intro hset m values hbound
        have hpieces : steps .bindings
            (Lines.literal (before ++ text ++ front) ++ items ++ ys) m values =
              steps .bindings (Lines.literal before ++ (Lines.literal text ++
                (Lines.literal front ++ items ++ ys))) m values := by
          have hfront : '\n' ∉ before ++ text := by simp [hline.1.1, hbreak]
          rw [List.append_assoc, steps_literal_append hfront, steps_literal_append hline.1.1,
            List.append_assoc]
        rw [hpieces]
        exact ((hafter.value hkey htext).literal before) hset m values hbound
      · rw [hread, List.append_assoc]
        refine SameRun.literal ?_ before
        cases Token.classify content with
        | error e => exact .error e
        | ok token => exact hafter.cons token

theorem sameRun_lines (hkey : '(' ∉ key) (htext : text.allBlank = false) (hbreak : '\n' ∉ text)
    (hmark : '[' ∉ text) {lines : List Text} (hlines : ∀ line ∈ lines, '\n' ∉ line) :
    SameRun key text (lines.flatMap ofLine)
      ((lines.map (substituteLine key text)).flatMap ofLine) := by
  induction lines with
  | nil => exact fun _ _ _ _ => rfl
  | cons line lines ih =>
      have hrest := ih fun other hmem => hlines other (List.mem_cons_of_mem _ hmem)
      exact hrest.line hkey htext hbreak hmark (hlines line (by simp))

end Machine

open Machine

/-- Expanding a key is the same as having written the text it is bound to, if that is visible, of
one line and without an opening bracket, and if the template does not assign to the key. -/
theorem expand_substitute (key text template : Text) (values : Bindings Value)
    (hkey : '(' ∉ key) (hbound : values.find? key = some (.text text))
    (hvisible : ∃ c ∈ text, isBlank c = false) (hbreak : '\n' ∉ text) (hmark : '[' ∉ text)
    (hset : ∀ token, .ok token ∈ tokenize template → ¬ token.Assigns key) :
    expand .bindings (substitute key text template) values = expand .bindings template values ∧
      .ok (.expand key) ∉ tokenize (substitute key text template) := by
  have htext : text.allBlank = false := by
    obtain ⟨c, hc, hv⟩ := hvisible
    rw [← Bool.not_eq_true, Text.allBlank_iff]
    intro hall
    simp [hall c hc] at hv
  refine ⟨?_, expand_not_mem_substitute hbreak hmark template⟩
  have hsame : SameRun key text (ofText template) (ofText (substitute key text template)) := by
    rw [ofText, ofText, splitOn_substitute hbreak]
    exact sameRun_lines hkey htext hbreak hmark fun _ hline => Text.not_mem_of_mem_splitOn hline
  rw [tokenize_eq] at hset
  rw [expand_eq_steps, expand_eq_steps, tokenize_eq, tokenize_eq, items, items, steps_untilFault,
    steps_untilFault, hsame hset .start values hbound]

/-- Between texts and in front of a list. -/
theorem expand_substitute_spliced :
    let template : Text := "a[[[k]]]][[[l]]][[[SET j=y]]]".toList
    let written : Text := "ax][[[l]]][[[SET j=y]]]".toList
    let values : Bindings Value := ⟨[(['k'], .text ['x']), (['l'], .lines [['b'], ['c']])]⟩
    let lines : List Text := ["ax]b".toList, "   c".toList]
    let assigned := values.insert ['j'] (.text ['y'])
    substitute ['k'] ['x'] template = written ∧
      expand .bindings template values = (.ok lines, assigned) ∧
      expand .bindings written values = (.ok lines, assigned) := by
  intro template written values lines assigned
  have hitems : tokenize template = ofTokens [.text ['a'], .expand ['k'], .text [']'],
      .expand ['l'], .set "j=y".toList, .newline] := by
    rw [tokenize_line rfl]
    rfl
  have hwritten : substitute ['k'] ['x'] template = written := by
    have ho₁ : Text.breakOn Token.opening template =
        some (['a'], "k]]]][[[l]]][[[SET j=y]]]".toList) := rfl
    have hc₁ : Text.breakOn Token.closing "k]]]][[[l]]][[[SET j=y]]]".toList =
        some (['k'], "][[[l]]][[[SET j=y]]]".toList) := rfl
    have ho₂ : Text.breakOn Token.opening "][[[l]]][[[SET j=y]]]".toList =
        some ([']'], "l]]][[[SET j=y]]]".toList) := rfl
    have hc₂ : Text.breakOn Token.closing "l]]][[[SET j=y]]]".toList =
        some (['l'], "[[[SET j=y]]]".toList) := rfl
    have ho₃ : Text.breakOn Token.opening "[[[SET j=y]]]".toList =
        some ([], "SET j=y]]]".toList) := rfl
    have hc₃ : Text.breakOn Token.closing "SET j=y]]]".toList = some ("SET j=y".toList, []) := rfl
    have hline : substituteLine ['k'] ['x'] template = written := by
      rw [substituteLine_of_directive ho₁ hc₁, substituteLine_of_directive ho₂ hc₂,
        substituteLine_of_directive ho₃ hc₃, substituteLine_of_unmarked rfl]
      decide
    rw [substitute, List.splitOn_eq_singleton (by decide), List.map_singleton, hline]
    rfl
  have hset : ∀ token, .ok token ∈ tokenize template → ¬ token.Assigns ['k'] := by
    rw [hitems]
    simp [Token.Assigns, Assignment.read?, Text.cut]
  have h : expand .bindings template values = (.ok lines, assigned) := by
    rw [expand, hitems]
    rfl
  refine ⟨hwritten, h, ?_⟩
  rw [← hwritten, ← h]
  exact (expand_substitute ['k'] ['x'] template values (by decide) rfl ⟨'x', by decide, rfl⟩
    (by decide) (by decide) hset).1

end Stencil
