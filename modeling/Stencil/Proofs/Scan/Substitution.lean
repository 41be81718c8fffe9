import Stencil.Proofs.Scan.Items

/-! Writing a text into a template in place of the directives that expand a key. A text without an
opening bracket makes no marker with what stands next to it: it is read as part of the text around
it, and everything else is read as before. -/

namespace Stencil.Lines

variable {key text line before inner content after : Text}

/-- What stands for a directive: `text` if it expands `key`, and otherwise the directive itself. -/
def replacement (key text content : Text) : Text :=
  match Token.classify content with
  | .ok (.expand other) => if other = key then text else Token.directive content
  | _ => Token.directive content

/-- The line with `text` in place of each directive that expands `key`. -/
def substituteLine (key text line : Text) : Text :=
  match _ho : Text.breakOn Token.opening line with
  | none => line
  | some (before, inner) =>
    match _hc : Text.breakOn Token.closing inner with
    | none => line
    | some (content, after) =>
      before ++ replacement key text content ++ substituteLine key text after
termination_by line.length
decreasing_by
  have ho := (Text.breakOn_leftmost _ho).length_lt (by decide)
  have hc := (Text.breakOn_leftmost _hc).length_lt (by decide)
  omega

/-- The template with `text` in place of each directive that expands `key`. -/
def substitute (key text template : Text) : Text :=
  Text.joined ['\n'] ((template.splitOn '\n').map (substituteLine key text))

/-! ## One line -/

theorem substituteLine_of_unmarked (ho : Text.breakOn Token.opening line = none) :
    substituteLine key text line = line := by
  fun_cases substituteLine key text line with
  | case1 => rfl
  | case2 _ _ ho' => simp [ho] at ho'
  | case3 _ _ ho' => simp [ho] at ho'

theorem substituteLine_of_unclosed (ho : Text.breakOn Token.opening line = some (before, inner))
    (hc : Text.breakOn Token.closing inner = none) : substituteLine key text line = line := by
  fun_cases substituteLine key text line with
  | case1 => rfl
  | case2 => rfl
  | case3 b i ho' c a hc' =>
      obtain ⟨rfl, rfl⟩ := Prod.mk.inj (Option.some.inj (ho.symm.trans ho'))
      simp [hc] at hc'

theorem substituteLine_of_directive (ho : Text.breakOn Token.opening line = some (before, inner))
    (hc : Text.breakOn Token.closing inner = some (content, after)) :
    substituteLine key text line =
      before ++ replacement key text content ++ substituteLine key text after := by
  fun_cases substituteLine key text line with
  | case1 ho' => simp [ho] at ho'
  | case2 b i ho' hc' =>
      obtain ⟨rfl, rfl⟩ := Prod.mk.inj (Option.some.inj (ho.symm.trans ho'))
      simp [hc] at hc'
  | case3 b i ho' c a hc' =>
      obtain ⟨rfl, rfl⟩ := Prod.mk.inj (Option.some.inj (ho.symm.trans ho'))
      obtain ⟨rfl, rfl⟩ := Prod.mk.inj (Option.some.inj (hc.symm.trans hc'))
      rfl

theorem replacement_eq (key text content : Text) :
    Token.classify content = .ok (.expand key) ∧ replacement key text content = text ∨
      Token.classify content ≠ .ok (.expand key) ∧
        replacement key text content = Token.directive content := by
  unfold replacement
  split
  · rename_i other ht
    by_cases hother : other = key
    · exact .inl ⟨hother ▸ ht, if_pos hother⟩
    · refine .inr ⟨?_, if_neg hother⟩
      simpa [ht] using hother
  · rename_i hne
    exact .inr ⟨hne key, rfl⟩

/-- A text without line breaks leaves the line a single line. -/
theorem single_substituteLine (ht : '\n' ∉ text) (hl : '\n' ∉ line) :
    '\n' ∉ substituteLine key text line := by
  fun_induction substituteLine key text line with
  | case1 => exact hl
  | case2 => exact hl
  | case3 line before inner ho content after hc ih =>
      rw [(Text.breakOn_leftmost ho).eq, (Text.breakOn_leftmost hc).eq] at hl
      simp only [List.mem_append, not_or] at hl
      have hreplacement : '\n' ∉ replacement key text content := by
        rcases replacement_eq key text content with ⟨-, h⟩ | ⟨-, h⟩
        · rwa [h]
        · simp [h, Token.directive, Token.opening, Token.closing, hl.2.1.1]
      simp [hl.1.1, hreplacement, ih hl.2.2]

/-! ## Reading -/

/-- A text in which no marker starts is read as part of the text that follows it. -/
theorem ofLine_append {t : Text} (h : Text.Clear Token.opening t) (line : Text) :
    ∃ front items, ofLine line = literal front ++ items ∧
      ofLine (t ++ line) = literal (t ++ front) ++ items := by
  have hopen := Text.breakOn_append h line
  cases ho : Text.breakOn Token.opening line with
  | none =>
      rw [ho] at hopen
      exact ⟨line, _, ofLine_of_unmarked ho, ofLine_of_unmarked hopen⟩
  | some found =>
      obtain ⟨before, inner⟩ := found
      rw [ho] at hopen
      cases hc : Text.breakOn Token.closing inner with
      | none => exact ⟨before, _, ofLine_of_unclosed ho hc, ofLine_of_unclosed hopen hc⟩
      | some closed =>
          obtain ⟨content, after⟩ := closed
          exact ⟨before, _, ofLine_of_directive ho hc, ofLine_of_directive hopen hc⟩

/-- How a line is read in which a directive stands: written as `text` it is part of the text around
it, and otherwise it is read as it was. -/
theorem ofLine_substituteLine (hmark : '[' ∉ text)
    (ho : Text.breakOn Token.opening line = some (before, inner))
    (hc : Text.breakOn Token.closing inner = some (content, after)) :
    Token.classify content = .ok (.expand key) ∧
      (∃ front items, ofLine (substituteLine key text after) = literal front ++ items ∧
        ofLine (substituteLine key text line) = literal (before ++ text ++ front) ++ items) ∨
    Token.classify content ≠ .ok (.expand key) ∧
      ofLine (substituteLine key text line) =
        literal before ++ Token.classify content :: ofLine (substituteLine key text after) := by
  have hbefore : Text.Clear Token.opening before := (Text.breakOn_leftmost ho).clear
  rw [substituteLine_of_directive ho hc]
  rcases replacement_eq key text content with ⟨ht, h⟩ | ⟨ht, h⟩
  · refine .inl ⟨ht, ?_⟩
    have htext : Text.Clear Token.opening text := Text.clear_of_not_mem rfl hmark
    rw [h]
    exact ofLine_append (hbefore.append htext) _
  · refine .inr ⟨ht, ?_⟩
    rw [h]
    exact ofLine_directive hbefore (Text.breakOn_leftmost hc).clear _

/-- No directive is left that expands the key. -/
theorem expand_not_mem_ofLine (hmark : '[' ∉ text) :
    .ok (.expand key) ∉ ofLine (substituteLine key text line) := by
  have hliteral (t : Text) : .ok (.expand key) ∉ literal t := by
    intro hmem
    simpa using (mem_literal hmem).1
  fun_induction substituteLine key text line with
  | case1 line ho =>
      rw [ofLine_of_unmarked ho]
      simp [hliteral]
  | case2 line before inner ho hc =>
      rw [ofLine_of_unclosed ho hc]
      simp [hliteral]
  | case3 line before inner ho content after hc ih =>
      rw [← substituteLine_of_directive ho hc]
      rcases ofLine_substituteLine hmark ho hc with ⟨-, front, items, hafter, hline⟩ | ⟨ht, hline⟩
      · rw [hline]
        rw [hafter] at ih
        simp_all
      · rw [hline]
        simp [hliteral, ih, Ne.symm ht]

/-! ## All lines -/

theorem splitOn_substitute (ht : '\n' ∉ text) (template : Text) :
    (substitute key text template).splitOn '\n' =
      (template.splitOn '\n').map (substituteLine key text) := by
  refine List.splitOn_intercalate '\n' ?_ (by simp)
  intro line hline
  obtain ⟨other, hother, rfl⟩ := List.mem_map.mp hline
  exact single_substituteLine ht (Text.not_mem_of_mem_splitOn hother)

/-- No directive of the template is left that expands the key. -/
theorem expand_not_mem_substitute (ht : '\n' ∉ text) (hmark : '[' ∉ text) (template : Text) :
    .ok (.expand key) ∉ tokenize (substitute key text template) := by
  rw [tokenize_eq]
  intro hmem
  obtain ⟨line, hline, hmem⟩ := mem_items hmem
  rw [splitOn_substitute ht] at hline
  obtain ⟨other, -, rfl⟩ := List.mem_map.mp hline
  exact expand_not_mem_ofLine hmark hmem

end Stencil.Lines
