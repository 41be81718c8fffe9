import Stencil.Template.Scan
import Stencil.Proofs.Text.Search
import Stencil.Proofs.Text.Trim

/-! The rules by which the content between two markers is told. No two rules apply to the same
content, so they need no order. -/

namespace Stencil.Directive

open Text

/-- A key: visible characters without a blank between them. -/
def Word (key : Text) : Prop := key ≠ [] ∧ ∀ c ∈ key, isBlank c = false

/-- The key is the first word; the comment is what follows it without the blanks around it. -/
inductive Condition : Text → Text → Option Text → Prop where
  | bare {gap key trail : Text} (hgap : gap.allBlank = true) (hkey : Word key)
      (htrail : trail.allBlank = true) : Condition (gap ++ key ++ trail) key none
  | commented {gap key space comment trail : Text} (hgap : gap.allBlank = true)
      (hkey : Word key) (hspace : space.allBlank = true) (hne : space ≠ []) (hc : comment ≠ [])
      (hstart : StartsVisible comment) (hend : EndsVisible comment)
      (htrail : trail.allBlank = true) :
      Condition (gap ++ key ++ (space ++ comment ++ trail)) key (some comment)

/-- The keywords that open a directive. -/
def keywords : List Text := ["IF ".toList, "ELIF ".toList, "ELSE".toList, "ENDIF".toList,
  "SET ".toList]

/-- The contents that are markers as they stand. -/
def marks : List Text := [['|'], ['>'], ['<']]

inductive Classifies : Text → Item → Prop where
  | ifThen {rest key : Text} {comment : Option Text} (h : Condition rest key comment) :
      Classifies ("IF ".toList ++ rest) (.ok (.ifThen key comment))
  | ifBare {rest : Text} (h : rest.allBlank = true) :
      Classifies ("IF ".toList ++ rest) (.error (.malformed (.missingKey "IF")))
  | elseIf {rest key : Text} {comment : Option Text} (h : Condition rest key comment) :
      Classifies ("ELIF ".toList ++ rest) (.ok (.elseIf key comment))
  | elseIfBare {rest : Text} (h : rest.allBlank = true) :
      Classifies ("ELIF ".toList ++ rest) (.error (.malformed (.missingKey "ELIF")))
  | align : Classifies ['|'] (.ok .align)
  | pushAlign : Classifies ['>'] (.ok .pushAlign)
  | popAlign : Classifies ['<'] (.ok .popAlign)
  | otherwise (rest : Text) : Classifies ("ELSE".toList ++ rest) (.ok .otherwise)
  | endIf (rest : Text) : Classifies ("ENDIF".toList ++ rest) (.ok .endIf)
  | set {gap assignment : Text} (hgap : gap.allBlank = true) (h : StartsVisible assignment) :
      Classifies ("SET ".toList ++ (gap ++ assignment)) (.ok (.set assignment))
  | expand {content : Text} (hk : ∀ keyword ∈ keywords, ¬ keyword <+: content)
      (hm : content ∉ marks) : Classifies content (.ok (.expand content))

/-! ## Conditions -/

theorem Word.startsVisible {key : Text} (h : Word key) (t : Text) : StartsVisible (key ++ t) := by
  intro c hc
  cases key with
  | nil => exact (h.1 rfl).elim
  | cons d key => exact h.2 c (by simp_all)

/-- A word in front of a text that does not continue it is read off. -/
theorem Word.takeWhile_append {key t : Text} (h : Word key) (ht : ∀ c ∈ t.head?, isBlank c = true) :
    (key ++ t).takeWhile (!isBlank ·) = key ∧ (key ++ t).dropWhile (!isBlank ·) = t := by
  have hk : ∀ c ∈ key, (!isBlank c) = true := by
    intro c hc
    simp [h.2 c hc]
  rw [List.takeWhile_append_of_pos hk, List.dropWhile_append_of_pos hk]
  cases t with
  | nil => simp
  | cons c t => simp [ht c rfl]

theorem condition_of_word {keyword gap key tail : Text} (hgap : gap.allBlank = true)
    (hkey : Word key) (ht : ∀ c ∈ tail.head?, isBlank c = true) :
    Token.condition keyword (gap ++ key ++ tail) =
      .ok (key, if (trim tail).isEmpty then none else some (trim tail)) := by
  obtain ⟨h₁, h₂⟩ := hkey.takeWhile_append ht
  have hne : key.isEmpty = false := by simpa using hkey.1
  rw [Token.condition, List.append_assoc, trimStart_append hgap,
    trimStart_eq_self (hkey.startsVisible tail)]
  simp only [h₁, h₂, hne, Bool.false_eq_true, if_false]

theorem Condition.execution {keyword rest key : Text} {comment : Option Text}
    (h : Condition rest key comment) : Token.condition keyword rest = .ok (key, comment) := by
  cases h with
  | @bare gap key trail hgap hkey htrail =>
      rw [condition_of_word hgap hkey]
      · rw [show trim trail = [] by rw [trim, trimStart_eq_nil htrail]; rfl]
        rfl
      · intro c hc
        exact allBlank_iff.mp htrail c (List.mem_of_mem_head? hc)
  | @commented gap key space comment trail hgap hkey hspace hne hc hstart hend htrail =>
      rw [condition_of_word hgap hkey]
      · rw [trim_eq hspace htrail hstart hend, List.isEmpty_eq_false_iff.mpr hc]
        rfl
      · intro c hmem
        apply allBlank_iff.mp hspace c
        cases space with
        | nil => exact (hne rfl).elim
        | cons d space => simp_all

theorem condition_blank {keyword rest : Text} (h : rest.allBlank = true) :
    Token.condition keyword rest = .error (.malformed (.missingKey keyword)) := by
  rw [Token.condition, trimStart_eq_nil h]
  rfl

/-- What follows a keyword is a condition, or it is blank. -/
theorem condition_cases (rest : Text) :
    rest.allBlank = true ∨ ∃ key comment, Condition rest key comment := by
  obtain ⟨gap, hgap, hrest⟩ := exists_blank_trimStart rest
  by_cases hb : trimStart rest = []
  · left
    rw [hrest, hb]
    simpa using hgap
  right
  have hs := trimStart_startsVisible rest
  generalize trimStart rest = visible at *
  have hsplit : visible.takeWhile (!isBlank ·) ++ visible.dropWhile (!isBlank ·) = visible :=
    List.takeWhile_append_dropWhile
  have hword : Word (visible.takeWhile (!isBlank ·)) := by
    constructor
    · cases visible with
      | nil => exact (hb rfl).elim
      | cons c visible => simp [hs c rfl]
    · intro c hc
      simpa using List.all_eq_true.mp List.all_takeWhile c hc
  obtain ⟨space, trail, hspace, htrail, htail, hstart, hend⟩ :=
    trim_spec (visible.dropWhile (!isBlank ·))
  generalize trim (visible.dropWhile (!isBlank ·)) = comment at *
  rw [hrest, ← hsplit, ← List.append_assoc]
  by_cases hc : comment = []
  · refine ⟨_, _, .bare hgap hword ?_⟩
    rw [htail, hc]
    simp [hspace, htrail]
  · rw [htail]
    refine ⟨_, _, .commented hgap hword hspace ?_ hc hstart hend htrail⟩
    rintro rfl
    cases comment with
    | nil => exact hc rfl
    | cons c comment =>
        have hd := List.head?_dropWhile_not (!isBlank ·) visible
        rw [htail] at hd
        have hv := hstart c rfl
        simp_all

/-! ## Directives -/

theorem classify_if (rest : Text) :
    Token.classify ("IF ".toList ++ rest) =
      (Token.condition "IF" rest).map fun (key, comment) => .ifThen key comment := rfl

theorem classify_elif (rest : Text) :
    Token.classify ("ELIF ".toList ++ rest) =
      (Token.condition "ELIF" rest).map fun (key, comment) => .elseIf key comment := rfl

theorem Classifies.execution {content : Text} {item : Item} (h : Classifies content item) :
    Token.classify content = item := by
  cases h with
  | ifThen h =>
      rw [classify_if, h.execution]
      rfl
  | ifBare h =>
      rw [classify_if, condition_blank h]
      rfl
  | elseIf h =>
      rw [classify_elif, h.execution]
      rfl
  | elseIfBare h =>
      rw [classify_elif, condition_blank h]
      rfl
  | align => rfl
  | pushAlign => rfl
  | popAlign => rfl
  | otherwise rest => rfl
  | endIf rest => rfl
  | @set gap assignment hgap h =>
      change Except.ok (Token.set (trimStart (gap ++ assignment))) = _
      rw [trimStart_append hgap, trimStart_eq_self h]
  | expand hk hm =>
      simp only [keywords, List.forall_mem_cons, List.not_mem_nil, false_implies, implies_true,
        and_true] at hk
      obtain ⟨hif, helif, helse, hendif, hset⟩ := hk
      simp only [marks, List.mem_cons, List.not_mem_nil, or_false, not_or] at hm
      obtain ⟨halign, hpush, hpop⟩ := hm
      rw [← isPrefixOf?_eq_none_iff] at hif helif hset
      rw [← List.isPrefixOf_iff_prefix] at helse hendif
      simp only [Token.classify, hif, helif, hset, helse, hendif, halign, hpush, hpop, if_false,
        Bool.false_eq_true]

/-- The rules are tried in the order of the classification; the last is left with none of them. -/
theorem classify_classifies (content : Text) : Classifies content (Token.classify content) := by
  by_cases hif : "IF ".toList <+: content
  · obtain ⟨rest, rfl⟩ := hif
    rcases condition_cases rest with h | ⟨key, comment, h⟩
    · rw [(Classifies.ifBare h).execution]
      exact .ifBare h
    · rw [(Classifies.ifThen h).execution]
      exact .ifThen h
  by_cases helif : "ELIF ".toList <+: content
  · obtain ⟨rest, rfl⟩ := helif
    rcases condition_cases rest with h | ⟨key, comment, h⟩
    · rw [(Classifies.elseIfBare h).execution]
      exact .elseIfBare h
    · rw [(Classifies.elseIf h).execution]
      exact .elseIf h
  by_cases hm : content ∈ marks
  · simp only [marks, List.mem_cons, List.not_mem_nil, or_false] at hm
    rcases hm with rfl | rfl | rfl
    · exact .align
    · exact .pushAlign
    · exact .popAlign
  by_cases helse : "ELSE".toList <+: content
  · obtain ⟨rest, rfl⟩ := helse
    exact .otherwise rest
  by_cases hendif : "ENDIF".toList <+: content
  · obtain ⟨rest, rfl⟩ := hendif
    exact .endIf rest
  by_cases hset : "SET ".toList <+: content
  · obtain ⟨rest, rfl⟩ := hset
    obtain ⟨gap, hgap, hrest⟩ := exists_blank_trimStart rest
    rw [hrest, (Classifies.set hgap (trimStart_startsVisible rest)).execution]
    exact .set hgap (trimStart_startsVisible rest)
  have hk : ∀ keyword ∈ keywords, ¬ keyword <+: content := by
    intro keyword hmem
    simp only [keywords, List.mem_cons, List.not_mem_nil, or_false] at hmem
    rcases hmem with rfl | rfl | rfl | rfl | rfl
    all_goals assumption
  rw [(Classifies.expand hk hm).execution]
  exact .expand hk hm

/-- The rules tell every directive, and only as the scanner does. -/
theorem classifies_iff {content : Text} {item : Item} :
    Classifies content item ↔ Token.classify content = item := by
  refine ⟨Classifies.execution, ?_⟩
  rintro rfl
  exact classify_classifies content

theorem classify_ne_text (content t : Text) : Token.classify content ≠ .ok (.text t) := by
  intro h
  cases classifies_iff.mpr h

theorem classify_ne_newline (content : Text) : Token.classify content ≠ .ok .newline := by
  intro h
  cases classifies_iff.mpr h

theorem classify_error {content : Text} {e : TemplateError}
    (h : Token.classify content = .error e) :
    ∃ reason, e = .malformed reason := by
  cases classifies_iff.mpr h with
  | ifBare => exact ⟨_, rfl⟩
  | elseIfBare => exact ⟨_, rfl⟩

end Stencil.Directive
