import Mathlib.Data.List.Basic
import Stencil.Command.Run
import Stencil.Proofs.Expand.Composition

/-! Assignments made before an expansion are those that directives in front of the template would
make. The line of such a directive leaves nothing but the assignment, so what follows is expanded as
if it stood alone, only further down. -/

namespace Stencil

open Machine Lines

/-! ## Writing an assignment -/

/-- An assignment that can be written into a directive as it is. A directive would drop blanks at
its start, and is over at the leftmost closing marker of its line. -/
structure Writable (setting : Text) : Prop where
  startsVisible : Text.StartsVisible setting
  single : '\n' ∉ setting
  unclosed : ¬ Token.closing <:+: setting
  last : setting.getLast? ≠ some ']'

/-- The directive that makes the assignment. -/
def settingLine (setting : Text) : Text := Token.directive ("SET ".toList ++ setting)

/-- The template behind a line for each of the assignments. -/
def preceded (settings : List Text) (template : Text) : Text :=
  settings.foldr (fun setting rest => settingLine setting ++ '\n' :: rest) template

variable {setting : Text} {a : Assignment}

theorem Writable.clear (h : Writable setting) (ha : Assignment.read? setting = some a) :
    Text.Clear Token.closing ("SET ".toList ++ setting) := by
  have hne : setting ≠ [] := by
    rintro rfl
    simp [Assignment.read?, Text.cut] at ha
  refine Text.clear_of_getLast? ?_ ?_
  · exact Text.not_infix_separated (x := ' ') (t := "SET".toList) (by decide) (by decide) h.unclosed
  · rw [List.getLast?_append_of_ne_nil _ hne]
    exact h.last

/-- The directive is read as the assignment, and nothing else stands on its line. -/
theorem tokenize_settingLine (h : Writable setting) (ha : Assignment.read? setting = some a) :
    tokenize (settingLine setting) = ofTokens [.set setting, .newline] := by
  have hsingle : '\n' ∉ settingLine setting := by
    simp [settingLine, Token.directive, Token.opening, Token.closing, h.single]
  have hclassify : Token.classify ("SET ".toList ++ setting) = .ok (.set setting) :=
    (Directive.Classifies.set Text.allBlank_nil h.startsVisible).execution
  have hrest : ofLine [] = [.ok .newline] := ofLine_of_unmarked rfl
  have hline := @ofLine_directive [] _ trivial (h.clear ha) []
  rw [List.nil_append, List.append_nil, hclassify, hrest] at hline
  rw [tokenize_eq, items, ofText, List.splitOn_eq_singleton hsingle, List.flatMap_singleton]
  exact congrArg untilFault hline

/-! ## Executing it -/

/-- The line break behind an assignment at the start of a line is swallowed. -/
theorem steps_settingLine (h : Writable setting) (ha : Assignment.read? setting = some a)
    (values : Bindings Value) :
    steps .bindings (tokenize (settingLine setting)) .start values =
      (.ok ⟨.empty, [], [], 2, false⟩, values.insert a.name (.text a.value)) := by
  have hset : Step .bindings .start values (.set setting) Machine.start.silent
      (values.insert a.name (.text a.value)) := .set rfl ha rfl
  rw [tokenize_settingLine h ha]
  exact (steps_cons_eq_ok _).mpr ⟨_, _, hset, (steps_cons_eq_ok _).mpr ⟨_, _, .swallowed rfl, rfl⟩⟩

/-- One assignment in front of a template. -/
theorem expand_settingLine (h : Writable setting) (ha : Assignment.read? setting = some a)
    (template : Text) (values : Bindings Value) :
    expand .bindings (settingLine setting ++ '\n' :: template) values =
      raised 1 (expand .bindings template (values.insert a.name (.text a.value))) := by
  have hsteps := steps_settingLine h ha values
  have hline : expand .bindings (settingLine setting) values =
      (.ok [], values.insert a.name (.text a.value)) := by
    rw [expand_eq_steps, hsteps]
    rfl
  have hopen : openAlignments .bindings (settingLine setting) values = [] := by
    rw [openAlignments, hsteps]
  have hcount : (settingLine setting).count '\n' = 0 := by
    rw [List.count_eq_zero]
    simp [settingLine, Token.directive, Token.opening, Token.closing, h.single]
  rw [expand_join_of_ok .bindings template hline (.inl hopen), hcount]
  congr 1
  rcases expand .bindings template (values.insert a.name (.text a.value)) with ⟨result, s⟩
  cases result <;> rfl

/-! ## Any number of them -/

theorem expand_preceded_eq {settings : List Text} {assignments : List Assignment}
    (hread : settings.map Assignment.read? = assignments.map some)
    (hwritable : ∀ setting ∈ settings, Writable setting) (template : Text)
    (values : Bindings Value) :
    expand .bindings (preceded settings template) values =
      raised settings.length (expand .bindings template (assignAll assignments values)) := by
  induction settings generalizing assignments values with
  | nil =>
      obtain rfl : assignments = [] := by simpa using hread
      exact (raised_zero _).symm
  | cons setting settings ih =>
      cases assignments with
      | nil => simp at hread
      | cons a assignments =>
          obtain ⟨ha, hread⟩ := List.cons.inj hread
          have hfirst := hwritable setting (by simp)
          have hrest : ∀ other ∈ settings, Writable other := fun other hmem =>
            hwritable other (List.mem_cons_of_mem _ hmem)
          rw [preceded, List.foldr_cons, ← preceded, expand_settingLine hfirst ha, ih hread hrest,
            raised_raised]
          rfl

/-- Assignments made one after the other before an expansion do what directives in front of the
template would do: the lines and the values afterwards are the same, and an error is the same one
further down, by the lines that the directives take up. -/
theorem expand_preceded (settings : List Text) (assignments : List Assignment) (template : Text)
    (values : Bindings Value) (hread : settings.map Assignment.read? = assignments.map some)
    (hwritable : ∀ setting ∈ settings, Writable setting) :
    let before := expand .bindings template (assignAll assignments values)
    let written := expand .bindings (preceded settings template) values
    written.2 = before.2 ∧
      (∀ lines, written.1 = .ok lines ↔ before.1 = .ok lines) ∧
      (∀ e, before.1 = .error e → ∃ line source, e = .atLine line source ∧
        written.1 = .error (.atLine (line + settings.length) source)) ∧
      ∀ e, written.1 = .error e → ∃ line source, before.1 = .error (.atLine line source) ∧
        e = .atLine (line + settings.length) source := by
  intro before written
  have hwritten : written = raised settings.length before :=
    expand_preceded_eq hread hwritable template values
  rw [hwritten]
  cases hbefore : before with
  | mk result after =>
      cases result with
      | ok lines => simp
      | error e =>
          obtain ⟨line, source, rfl⟩ := run_error .bindings hbefore
          simp [TemplateError.raised]

/-- Values with an equals sign, with an opening marker and with a blank at the end, and an error two
lines further down. -/
theorem expand_preceded_twice :
    let settings : List Text := ["k=v".toList, "n=a=[[[(b ".toList]
    let values : Bindings Value := ⟨[(['k'], .bool true)]⟩
    let assigned : Bindings Value := ⟨[(['k'], .text ['v']), (['n'], .text "a=[[[(b ".toList)]⟩
    expand .bindings (preceded settings "[[[n]]].".toList) values =
        (.ok ["a=[[[(b .".toList], assigned) ∧
      expand .bindings (preceded settings "\n[[[m]]]".toList) values =
        (.error (.atLine 4 (.unknownKey ['m'])), assigned) := by
  intro settings values assigned
  let assignments : List Assignment := [⟨['k'], ['v']⟩, ⟨['n'], "a=[[[(b ".toList⟩]
  have hread : settings.map Assignment.read? = assignments.map some := rfl
  have hwritable : ∀ setting ∈ settings, Writable setting := by
    intro setting hmem
    simp only [settings, List.mem_cons, List.not_mem_nil, or_false] at hmem
    rcases hmem with rfl | rfl
    · exact ⟨by simp [Text.StartsVisible, isBlank], by decide, Text.breakOn_eq_none_iff.mp rfl,
        by decide⟩
    · exact ⟨by simp [Text.StartsVisible, isBlank], by decide, Text.breakOn_eq_none_iff.mp rfl,
        by decide⟩
  have hvalue : expand .bindings "[[[n]]].".toList (assignAll assignments values) =
      (.ok ["a=[[[(b .".toList], assigned) := by
    rw [expand, tokenize_line rfl]
    rfl
  have hunknown : expand .bindings "\n[[[m]]]".toList (assignAll assignments values) =
      (.error (.atLine 2 (.unknownKey ['m'])), assigned) := by
    rw [expand, tokenize_lines rfl, tokenize_line rfl]
    rfl
  refine ⟨?_, ?_⟩
  · obtain ⟨hafter, hlines, -⟩ := expand_preceded settings assignments _ values hread hwritable
    exact Prod.ext ((hlines _).mpr (congrArg Prod.fst hvalue)) (hafter.trans (by rw [hvalue]))
  · obtain ⟨hafter, -, herror, -⟩ := expand_preceded settings assignments _ values hread hwritable
    obtain ⟨line, source, he, hwritten⟩ := herror _ (congrArg Prod.fst hunknown)
    obtain ⟨rfl, rfl⟩ := TemplateError.atLine.inj he
    exact Prod.ext hwritten (hafter.trans (by rw [hunknown]))

end Stencil
