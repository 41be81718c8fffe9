import Stencil.Proofs.Scan.Lines

/-! What the items of a template hold: text without markers, one line break for each line, and no
more than one fault, at the end. -/

namespace Stencil.Lines

open Scan

/-! ## Faults -/

theorem mem_untilFault {item : Item} {items : List Item} (h : item ∈ untilFault items) :
    item ∈ items := by
  rcases exists_tokens items with ⟨tokens, rfl⟩ | ⟨tokens, e, unread, rfl⟩
  · rwa [untilFault_ofTokens] at h
  · rw [untilFault_ofTokens_append, untilFault_error] at h
    rcases List.mem_append.mp h with h | h
    · exact List.mem_append_left _ h
    · exact List.mem_append_right _ (by simp_all)

/-- Items without a fault are those of all lines. -/
theorem untilFault_eq_ofTokens {items : List Item} {tokens : List Token}
    (h : untilFault items = ofTokens tokens) : items = ofTokens tokens := by
  rcases exists_tokens items with ⟨front, rfl⟩ | ⟨front, e, unread, rfl⟩
  · rw [← h, untilFault_ofTokens]
  · rw [untilFault_ofTokens_append, untilFault_error] at h
    have hmem : .error e ∈ ofTokens tokens := by simp [← h]
    exact (error_not_mem_ofTokens hmem).elim

/-- Nothing follows a fault. -/
theorem getLast?_untilFault {items : List Item} {e : TemplateError}
    (h : .error e ∈ untilFault items) : (untilFault items).getLast? = some (.error e) := by
  rcases exists_tokens items with ⟨tokens, rfl⟩ | ⟨tokens, e', unread, rfl⟩
  · exact (error_not_mem_ofTokens (mem_untilFault h)).elim
  · rw [untilFault_ofTokens_append, untilFault_error] at h ⊢
    rcases List.mem_append.mp h with h | h
    · exact (error_not_mem_ofTokens h).elim
    · rw [List.getLast?_concat, List.mem_singleton.mp h]

theorem mem_literal {t : Text} {item : Item} (h : item ∈ literal t) :
    item = .ok (.text t) ∧ t ≠ [] := by
  cases t with
  | nil => simp [literal] at h
  | cons c rest => simpa [literal] using h

theorem exists_tokens_literal (t : Text) :
    ∃ tokens, literal t = ofTokens tokens ∧ .newline ∉ tokens := by
  cases t with
  | nil => exact ⟨[], rfl, by simp⟩
  | cons c rest => exact ⟨[.text (c :: rest)], rfl, by simp⟩

/-- Text in front of a leftmost marker is a stretch of its line without one. -/
theorem text_before {line before inner t : Text}
    (hl : Text.Leftmost Token.opening line before inner)
    (h : (.ok (.text t) : Item) = .ok (.text before) ∧ before ≠ []) :
    t ≠ [] ∧ t <:+: line ∧ ¬ Token.opening <:+: t := by
  obtain ⟨ht, hne⟩ := h
  obtain rfl : t = before := by simpa using ht
  refine ⟨hne, ?_, hl.not_infix_before (by decide)⟩
  rw [hl.eq]
  exact ((List.prefix_append _ _).trans (List.prefix_append _ _)).isInfix

theorem infix_after {line before inner content after : Text}
    (ho : Text.breakOn Token.opening line = some (before, inner))
    (hc : Text.breakOn Token.closing inner = some (content, after)) : after <:+: line := by
  rw [(Text.breakOn_leftmost ho).eq, (Text.breakOn_leftmost hc).eq]
  exact ((List.suffix_append _ _).trans (List.suffix_append _ _)).isInfix

/-- The text tokens of a line are stretches of it without an opening marker. -/
theorem text_mem_ofLine {line t : Text} (h : .ok (.text t) ∈ ofLine line) :
    t ≠ [] ∧ t <:+: line ∧ ¬ Token.opening <:+: t := by
  fun_induction ofLine line with
  | case1 line ho =>
      rcases List.mem_append.mp h with h | h
      · obtain ⟨ht, hne⟩ := mem_literal h
        obtain rfl : t = line := by simpa using ht
        exact ⟨hne, List.infix_rfl, Text.breakOn_eq_none_iff.mp ho⟩
      · simp at h
  | case2 line before inner ho hc =>
      rcases List.mem_append.mp h with h | h
      · exact text_before (Text.breakOn_leftmost ho) (mem_literal h)
      · simp at h
  | case3 line before inner ho content after hc ih =>
      rcases List.mem_append.mp h with h | h
      · exact text_before (Text.breakOn_leftmost ho) (mem_literal h)
      · rcases List.mem_cons.mp h with h | h
        · exact (Directive.classify_ne_text content t h.symm).elim
        · obtain ⟨hne, hin, hno⟩ := ih h
          exact ⟨hne, hin.trans (infix_after ho hc), hno⟩

theorem error_mem_ofLine {line : Text} {e : TemplateError} (h : .error e ∈ ofLine line) :
    ∃ reason, e = .malformed reason := by
  fun_induction ofLine line with
  | case1 line ho =>
      rcases List.mem_append.mp h with h | h
      · simpa using (mem_literal h).1
      · simp at h
  | case2 line before inner ho hc =>
      rcases List.mem_append.mp h with h | h
      · simpa using (mem_literal h).1
      · exact ⟨.unclosed, by simpa using h⟩
  | case3 line before inner ho content after hc ih =>
      rcases List.mem_append.mp h with h | h
      · simpa using (mem_literal h).1
      · rcases List.mem_cons.mp h with h | h
        · exact Directive.classify_error h.symm
        · exact ih h

/-- A line without a fault ends with its only line break. -/
theorem ofLine_tokens {line : Text} {tokens : List Token} (h : ofLine line = ofTokens tokens) :
    ∃ front, tokens = front ++ [.newline] ∧ .newline ∉ front := by
  fun_induction ofLine line generalizing tokens with
  | case1 line ho =>
      obtain ⟨front, hf, hn⟩ := exists_tokens_literal line
      refine ⟨front, ofTokens_injective ?_, hn⟩
      rw [← h, hf]
      simp
  | case2 line before inner ho hc =>
      have hmem : .error (.malformed .unclosed) ∈ ofTokens tokens := by simp [← h]
      exact (error_not_mem_ofTokens hmem).elim
  | case3 line before inner ho content after hc ih =>
      obtain ⟨first, hf, hn⟩ := exists_tokens_literal before
      obtain ⟨t₁, t₂, rfl, h₁, h₂⟩ := List.map_eq_append_iff.mp h.symm
      obtain ⟨token, t₃, rfl, ht, h₃⟩ := List.map_eq_cons_iff.mp h₂
      obtain ⟨front, rfl, hnf⟩ := ih h₃.symm
      obtain rfl : first = t₁ := ofTokens_injective (hf.symm.trans h₁.symm)
      refine ⟨first ++ token :: front, by simp, ?_⟩
      have hne : Token.newline ≠ token := by
        rintro rfl
        exact Directive.classify_ne_newline content ht.symm
      simp [hn, hnf, hne]

/-- Without a fault each line leaves one line break, the last one at the end. -/
theorem flatMap_ofLine_tokens {lines : List Text} {tokens : List Token}
    (h : lines.flatMap ofLine = ofTokens tokens) :
    tokens.count .newline = lines.length ∧
      (lines ≠ [] → ∃ front, tokens = front ++ [.newline]) := by
  induction lines generalizing tokens with
  | nil =>
      obtain rfl : tokens = [] := by simpa using h.symm
      simp
  | cons line lines ih =>
      obtain ⟨t₁, t₂, rfl, h₁, h₂⟩ := List.map_eq_append_iff.mp h.symm
      obtain ⟨front, rfl, hn⟩ := ofLine_tokens h₁.symm
      obtain ⟨hcount, hlast⟩ := ih h₂.symm
      refine ⟨?_, fun _ => ?_⟩
      · simp [hcount, List.count_eq_zero.mpr hn]
      · cases lines with
        | nil =>
            obtain rfl : t₂ = [] := by simpa using h₂
            exact ⟨front, by simp⟩
        | cons next lines =>
            obtain ⟨more, rfl⟩ := hlast (by simp)
            exact ⟨front ++ [.newline] ++ more, by simp⟩

/-- A template without a fault has as many line breaks as lines, and ends with one. -/
theorem items_tokens {template : Text} {tokens : List Token}
    (h : items template = ofTokens tokens) :
    tokens.count .newline = template.count '\n' + 1 ∧ ∃ front, tokens = front ++ [.newline] := by
  obtain ⟨hcount, hlast⟩ := flatMap_ofLine_tokens (untilFault_eq_ofTokens h)
  rw [Text.length_splitOn] at hcount
  exact ⟨hcount, hlast (List.splitOn_ne_nil _ _)⟩

theorem mem_items {template : Text} {item : Item} (h : item ∈ items template) :
    ∃ line ∈ template.splitOn '\n', item ∈ ofLine line :=
  List.mem_flatMap.mp (mem_untilFault h)

/-- Reading a stream again and again yields the items of the template's lines in order, and nothing
for ever after. The lines are cut at the leftmost marks, and the content of a directive is told by
the rules. -/
theorem take_ofText (template : Text) :
    (∀ n, (Stream.ofText template).take n = (List.range n).map fun i => (items template)[i]?) ∧
      (∀ mark t before after,
        Text.breakOn mark t = some (before, after) ↔ Text.Leftmost mark t before after) ∧
      (∀ content item, Directive.Classifies content item ↔ Token.classify content = item) ∧
      (∀ t, .ok (.text t) ∈ items template →
        t ≠ [] ∧ '\n' ∉ t ∧ ¬ Token.opening <:+: t) ∧
      (∀ e, .error e ∈ items template →
        (∃ reason, e = .malformed reason) ∧ (items template).getLast? = some (.error e)) ∧
      (∀ tokens, items template = ofTokens tokens →
        tokens.count .newline = template.count '\n' + 1 ∧
          ∃ front, tokens = front ++ [.newline]) := by
  refine ⟨fun n => take_eq n _, fun _ _ _ _ => Text.breakOn_eq_some_iff,
    fun _ _ => Directive.classifies_iff, ?_, ?_, ?_⟩
  · intro t ht
    obtain ⟨line, hline, hmem⟩ := mem_items ht
    obtain ⟨hne, hin, hno⟩ := text_mem_ofLine hmem
    exact ⟨hne, fun hb => Text.not_mem_of_mem_splitOn hline (hin.mem hb), hno⟩
  · intro e he
    obtain ⟨line, -, hmem⟩ := mem_items he
    exact ⟨error_mem_ofLine hmem, getLast?_untilFault he⟩
  · intro tokens h
    exact items_tokens h

end Stencil.Lines
