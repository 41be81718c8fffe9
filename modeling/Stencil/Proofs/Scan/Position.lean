import Stencil.Proofs.Scan.Items

/-! Where the items of a template stand. Read one after the other the stretches of the template
from which they come are the template itself, so what stands in front of an item is known from the
items before it. -/

namespace Stencil.Lines

/-- The stretch of a template that an item is read from. -/
inductive Spells : Text → Item → Prop where
  | text {t : Text} (h : '\n' ∉ t) : Spells t (.ok (.text t))
  | newline : Spells ['\n'] (.ok .newline)
  | directive {content : Text} (h : '\n' ∉ content) (hc : ¬ Token.closing <:+: content) :
      Spells (Token.directive content) (Token.classify content)

/-- The text is made up of the stretches of the items. -/
inductive Written : Text → List Item → Prop where
  | nil : Written [] []
  | cons {stretch rest : Text} {item : Item} {items : List Item} (h : Spells stretch item)
      (hr : Written rest items) : Written (stretch ++ rest) (item :: items)

/-- The item is read where the text starts. The end of a template ends its last line. -/
inductive Starts : Text → Item → Prop where
  | stretch {stretch rest : Text} {item : Item} (h : Spells stretch item) :
      Starts (stretch ++ rest) item
  | last : Starts [] (.ok .newline)
  | unclosed {rest : Text} : Starts (Token.opening ++ rest) (.error (.malformed .unclosed))

/-- The item stands behind `before`, which has been read as the tokens in front of it. -/
def StandsAt (t before : Text) (front : List Token) (item : Item) : Prop :=
  ∃ after, t = before ++ after ∧ Written before (ofTokens front) ∧ Starts after item

/-- Every item stands somewhere in the text, behind those in front of it. -/
def Placed (t : Text) (items : List Item) : Prop :=
  ∀ front item rest, items = ofTokens front ++ item :: rest →
    ∃ before, StandsAt t before front item

/-- What has been read holds one line break for each of its line break tokens. -/
theorem Written.count {t : Text} {tokens : List Token} (h : Written t (ofTokens tokens)) :
    t.count '\n' = tokens.count .newline := by
  generalize hitems : ofTokens tokens = items at h
  induction h generalizing tokens with
  | nil =>
      obtain rfl : tokens = [] := by simpa using hitems
      rfl
  | @cons stretch rest item items hs hr ih =>
      cases tokens with
      | nil => simp at hitems
      | cons token tokens =>
          obtain ⟨hitem, htail⟩ := List.cons.inj hitems
          rw [List.count_append, ih htail, List.count_cons, Nat.add_comm]
          congr 1
          cases hs with
          | text ht =>
              obtain rfl := Except.ok.inj hitem
              simp [List.count_eq_zero.mpr ht]
          | newline =>
              obtain rfl := Except.ok.inj hitem
              rfl
          | @directive content hn hc =>
              have hne : token ≠ .newline := by
                rintro rfl
                exact Directive.classify_ne_newline content hitem.symm
              have hmarks : (Token.directive content).count '\n' = content.count '\n' := by
                simp [Token.directive, Token.opening, Token.closing]
              rw [hmarks, List.count_eq_zero.mpr hn, if_neg (by simpa using hne)]

/-! ## Placing items -/

variable {t rest stretch line : Text} {item : Item} {items : List Item}

theorem Placed.cons (h : Placed rest items) (hs : Spells stretch item) :
    Placed (stretch ++ rest) (item :: items) := by
  intro front other more hitems
  cases front with
  | nil =>
      obtain ⟨rfl, -⟩ := List.cons.inj hitems
      exact ⟨[], stretch ++ rest, rfl, .nil, .stretch hs⟩
  | cons token front =>
      obtain ⟨rfl, htail⟩ := List.cons.inj hitems
      obtain ⟨before, after, rfl, hbefore, hafter⟩ := h front other more htail
      exact ⟨stretch ++ before, after, by simp, .cons hs hbefore, hafter⟩

theorem Placed.literal (h : Placed rest items) (ht : '\n' ∉ t) :
    Placed (t ++ rest) (literal t ++ items) := by
  cases t with
  | nil => exact h
  | cons c t => exact h.cons (.text ht)

/-- Nothing is read behind a fault. -/
theorem placed_fault {e : TemplateError} (h : Starts t (.error e)) :
    Placed t (.error e :: items) := by
  intro front other more hitems
  cases front with
  | nil =>
      obtain ⟨rfl, -⟩ := List.cons.inj hitems
      exact ⟨[], t, rfl, .nil, h⟩
  | cons token front => simp at hitems

theorem placed_last : Placed [] [.ok .newline] := by
  intro front other more hitems
  cases front with
  | nil =>
      obtain ⟨rfl, -⟩ := List.cons.inj hitems
      exact ⟨[], [], rfl, .nil, .last⟩
  | cons token front => simp at hitems

/-- A line is placed in front of what stands behind its text, the line break first. -/
theorem Placed.ofLine (h : Placed rest (.ok .newline :: items)) (hl : '\n' ∉ line) :
    Placed (line ++ rest) (Lines.ofLine line ++ items) := by
  fun_induction Lines.ofLine line with
  | case1 line ho =>
      rw [List.append_assoc]
      exact h.literal hl
  | case2 line before inner ho hc =>
      rw [(Text.breakOn_leftmost ho).eq] at hl ⊢
      simp only [List.mem_append, not_or] at hl
      rw [List.append_assoc, List.append_assoc, List.append_assoc]
      exact (placed_fault .unclosed).literal hl.1.1
  | case3 line before inner ho content after hc ih =>
      have hcontent := (Text.breakOn_leftmost hc).not_infix_before (by decide)
      rw [(Text.breakOn_leftmost ho).eq, (Text.breakOn_leftmost hc).eq] at hl ⊢
      simp only [List.mem_append, not_or] at hl
      have hdirective := (ih hl.2.2).cons (.directive hl.2.1.1 hcontent)
      simpa [Token.directive] using hdirective.literal hl.1.1

/-- The lines of a text, one below the other, are placed in it. -/
theorem placed_lines {lines : List Text} (hne : lines ≠ []) (h : ∀ line ∈ lines, '\n' ∉ line) :
    Placed (['\n'].intercalate lines) (lines.flatMap ofLine) := by
  induction lines with
  | nil => exact (hne rfl).elim
  | cons line lines ih =>
      have hline : '\n' ∉ line := h line (by simp)
      cases lines with
      | nil =>
          have hlast := placed_last.ofLine hline
          simpa using hlast
      | cons next lines =>
          have hrest := ih (by simp) fun other hmem => h other (List.mem_cons_of_mem _ hmem)
          have hnext := (hrest.cons .newline).ofLine hline
          simpa using hnext

theorem Placed.untilFault (h : Placed t items) : Placed t (untilFault items) := by
  intro front item more hitems
  rcases exists_tokens items with ⟨tokens, rfl⟩ | ⟨tokens, e, unread, rfl⟩
  · rw [untilFault_ofTokens] at hitems
    exact h front item more hitems
  · rw [untilFault_ofTokens_append, untilFault_error] at hitems
    refine h front item (more ++ unread) ?_
    calc
      ofTokens tokens ++ .error e :: unread = (ofTokens tokens ++ [.error e]) ++ unread := by simp
      _ = ofTokens front ++ item :: (more ++ unread) := by simp [hitems]

/-- The items of a template are placed in it. -/
theorem placed_items (template : Text) : Placed template (Lines.items template) := by
  have hlines : Placed (['\n'].intercalate (template.splitOn '\n')) (ofText template) :=
    placed_lines (List.splitOn_ne_nil _ _) fun _ hline => Text.not_mem_of_mem_splitOn hline
  rw [List.intercalate_splitOn] at hlines
  exact hlines.untilFault

end Stencil.Lines
