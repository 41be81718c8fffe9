import Stencil.Proofs.Scan.Items

/-! Where the line breaks stand among the items of a template: one at the end of each line. -/

namespace Stencil.Lines

/-- A line is read as tokens up to its line break, or up to a fault. -/
theorem ofLine_cases (line : Text) : ∃ tokens, .newline ∉ tokens ∧
    (ofLine line = ofTokens (tokens ++ [.newline]) ∨
      ∃ e unread, ofLine line = ofTokens tokens ++ .error e :: unread) := by
  fun_induction ofLine line with
  | case1 line ho =>
      obtain ⟨tokens, ht, hn⟩ := exists_tokens_literal line
      exact ⟨tokens, hn, .inl (by simp [ht])⟩
  | case2 line before inner ho hc =>
      obtain ⟨tokens, ht, hn⟩ := exists_tokens_literal before
      exact ⟨tokens, hn, .inr ⟨_, _, by rw [ht]⟩⟩
  | case3 line before inner ho content after hc ih =>
      obtain ⟨first, hf, hn⟩ := exists_tokens_literal before
      obtain ⟨tokens, hnt, hcases⟩ := ih
      cases hclass : Token.classify content with
      | error e => exact ⟨first, hn, .inr ⟨e, ofLine after, by rw [hf]⟩⟩
      | ok token =>
          have hne : Token.newline ≠ token := by
            rintro rfl
            exact Directive.classify_ne_newline content hclass
          refine ⟨first ++ token :: tokens, by simp [hn, hnt, hne], ?_⟩
          rcases hcases with h | ⟨e, unread, h⟩
          · exact .inl (by simp [hf, h])
          · exact .inr ⟨e, unread, by simp [hf, h]⟩

/-- The first line break behind tokens without one is the one that is looked for, or stands before
it. -/
theorem newline_cases {tokens front : List Token} {rest rest' : List Item} (hn : .newline ∉ tokens)
    (h : ofTokens tokens ++ .ok .newline :: rest = ofTokens front ++ .ok .newline :: rest') :
    front = tokens ∨ ∃ later, front = tokens ++ .newline :: later ∧
      rest = ofTokens later ++ .ok .newline :: rest' := by
  induction tokens generalizing front with
  | nil =>
      cases front with
      | nil => exact .inl rfl
      | cons token later =>
          obtain ⟨hitem, hrest⟩ := List.cons.inj h
          obtain rfl : Token.newline = token := Except.ok.inj hitem
          exact .inr ⟨later, rfl, hrest⟩
  | cons token tokens ih =>
      simp only [List.mem_cons, not_or] at hn
      cases front with
      | nil =>
          obtain ⟨hitem, -⟩ := List.cons.inj h
          exact (hn.1 (Except.ok.inj hitem).symm).elim
      | cons token' front =>
          obtain ⟨hitem, htail⟩ := List.cons.inj h
          obtain rfl : token = token' := Except.ok.inj hitem
          rcases ih hn.2 htail with rfl | ⟨later, rfl, hrest⟩
          · exact .inl rfl
          · exact .inr ⟨later, rfl, hrest⟩

/-- The line is one of those of a template, below the lines `above`. It is read as the tokens with a
line break behind them. -/
structure LineOf (lines above : List Text) (line : Text) (tokens : List Token) : Prop where
  place : above ++ [line] <+: lines
  items : ofLine line = ofTokens (tokens ++ [.newline])
  single : .newline ∉ tokens

/-- In front of a line break stand the items of the lines above the line that it ends, and of that
line. -/
theorem exists_line {lines : List Text} {front : List Token} {rest : List Item}
    (h : untilFault (lines.flatMap ofLine) = ofTokens front ++ .ok .newline :: rest) :
    ∃ above line tokens, LineOf lines above line tokens ∧
      ofTokens front = above.flatMap ofLine ++ ofTokens tokens := by
  induction lines generalizing front with
  | nil => simp at h
  | cons line lines ih =>
      obtain ⟨tokens, hn, hline | ⟨e, unread, hline⟩⟩ := ofLine_cases line
      · rw [List.flatMap_cons, hline, untilFault_ofTokens_append, ofTokens, List.map_append,
          List.append_assoc] at h
        rcases newline_cases hn h with rfl | ⟨later, rfl, hlater⟩
        · exact ⟨[], line, front, ⟨⟨lines, rfl⟩, hline, hn⟩, rfl⟩
        · obtain ⟨above, next, tokens', ⟨hplace, hnext, hn'⟩, habove⟩ := ih hlater
          have hbelow : line :: above ++ [next] <+: line :: lines :=
            List.cons_prefix_cons.mpr ⟨rfl, hplace⟩
          exact ⟨line :: above, next, tokens', ⟨hbelow, hnext, hn'⟩, by simp [hline, habove]⟩
      · rw [List.flatMap_cons, hline, List.append_assoc, untilFault_ofTokens_append,
          List.cons_append, untilFault_error] at h
        have hmem : .ok .newline ∈ ofTokens tokens ++ [.error e] := by
          rw [h]
          simp
        simp [hn] at hmem

end Stencil.Lines
