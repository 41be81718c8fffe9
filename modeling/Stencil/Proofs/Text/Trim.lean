import Stencil.Text

/-! What trimming keeps of a text: the stretch from its first to its last visible character. -/

namespace Stencil.Text

/-- The first character, if there is one, is visible. -/
def StartsVisible (t : Text) : Prop := ∀ c ∈ t.head?, isBlank c = false

/-- The last character, if there is one, is visible. -/
def EndsVisible (t : Text) : Prop := ∀ c ∈ t.getLast?, isBlank c = false

theorem allBlank_iff {t : Text} : t.allBlank = true ↔ ∀ c ∈ t, isBlank c = true := by
  simp [allBlank]

@[simp] theorem allBlank_nil : allBlank [] = true := rfl

@[simp] theorem allBlank_cons (c : Char) (t : Text) :
    allBlank (c :: t) = (isBlank c && allBlank t) := rfl

@[simp] theorem allBlank_append (t u : Text) :
    allBlank (t ++ u) = (allBlank t && allBlank u) := by
  simp [allBlank]

@[simp] theorem allBlank_reverse (t : Text) : allBlank t.reverse = allBlank t := by
  simp [allBlank]

/-! ## The start -/

theorem trimStart_startsVisible (t : Text) : StartsVisible (trimStart t) := by
  intro c hc
  have h := List.head?_dropWhile_not isBlank t
  rw [trimStart] at hc
  simp_all

theorem trimStart_eq_self {t : Text} (h : StartsVisible t) : trimStart t = t := by
  cases t with
  | nil => rfl
  | cons c t => simp [trimStart, h c rfl]

theorem trimStart_append {gap t : Text} (hg : gap.allBlank = true) :
    trimStart (gap ++ t) = trimStart t := by
  induction gap with
  | nil => rfl
  | cons c gap ih =>
      simp only [allBlank_cons, Bool.and_eq_true] at hg
      simpa [trimStart, hg.1] using ih hg.2

theorem trimStart_eq_nil {t : Text} (h : t.allBlank = true) : trimStart t = [] := by
  have := trimStart_append (t := []) h
  rwa [List.append_nil] at this

theorem exists_blank_trimStart (t : Text) :
    ∃ gap : Text, gap.allBlank = true ∧ t = gap ++ trimStart t := by
  refine ⟨t.takeWhile isBlank, ?_, (List.takeWhile_append_dropWhile).symm⟩
  exact List.all_takeWhile

/-! ## The end -/

theorem startsVisible_reverse {t : Text} : StartsVisible t.reverse ↔ EndsVisible t := by
  simp [StartsVisible, EndsVisible]

theorem trimEnd_eq (t : Text) : trimEnd t = (trimStart t.reverse).reverse := rfl

theorem trimEnd_endsVisible (t : Text) : EndsVisible (trimEnd t) := by
  rw [← startsVisible_reverse, trimEnd_eq, List.reverse_reverse]
  exact trimStart_startsVisible t.reverse

theorem trimEnd_eq_self {t : Text} (h : EndsVisible t) : trimEnd t = t := by
  rw [trimEnd_eq, trimStart_eq_self (startsVisible_reverse.mpr h), List.reverse_reverse]

theorem trimEnd_append {t trail : Text} (h : trail.allBlank = true) :
    trimEnd (t ++ trail) = trimEnd t := by
  rw [trimEnd_eq, List.reverse_append, trimStart_append (by simpa using h), trimEnd_eq]

theorem exists_blank_trimEnd (t : Text) :
    ∃ trail : Text, trail.allBlank = true ∧ t = trimEnd t ++ trail := by
  obtain ⟨gap, hg, ht⟩ := exists_blank_trimStart t.reverse
  refine ⟨gap.reverse, by simpa using hg, ?_⟩
  rw [trimEnd_eq, ← List.reverse_append, ← ht, List.reverse_reverse]

/-! ## Both ends -/

theorem trimEnd_startsVisible {t : Text} (h : StartsVisible t) : StartsVisible (trimEnd t) := by
  obtain ⟨trail, -, ht⟩ := exists_blank_trimEnd t
  intro c hc
  cases he : trimEnd t with
  | nil => simp [he] at hc
  | cons d rest =>
      rw [he] at hc ht
      rw [ht] at h
      exact h c (by simpa using hc)

/-- Trimming cuts blanks off both ends, up to visible characters. -/
theorem trim_spec (t : Text) :
    ∃ gap trail : Text, gap.allBlank = true ∧ trail.allBlank = true ∧ t = gap ++ trim t ++ trail ∧
      StartsVisible (trim t) ∧ EndsVisible (trim t) := by
  obtain ⟨gap, hg, ht⟩ := exists_blank_trimStart t
  obtain ⟨trail, htr, he⟩ := exists_blank_trimEnd (trimStart t)
  refine ⟨gap, trail, hg, htr, ?_, ?_, trimEnd_endsVisible _⟩
  · rw [List.append_assoc, trim, ← he, ← ht]
  · exact trimEnd_startsVisible (trimStart_startsVisible t)

theorem trim_eq {gap t trail : Text} (hg : gap.allBlank = true) (ht : trail.allBlank = true)
    (hs : StartsVisible t) (he : EndsVisible t) : trim (gap ++ t ++ trail) = t := by
  rw [trim, List.append_assoc, trimStart_append hg]
  cases t with
  | nil =>
      rw [List.nil_append, trimStart_eq_nil ht]
      rfl
  | cons c t =>
      rw [trimStart_eq_self (by simpa [StartsVisible] using hs), trimEnd_append ht,
        trimEnd_eq_self he]

@[simp] theorem trim_trim (t : Text) : trim (trim t) = trim t := by
  obtain ⟨-, -, -, -, -, hstart, hend⟩ := trim_spec t
  simpa using @trim_eq [] (trim t) [] rfl rfl hstart hend

/-- White space around a trimmed text is cut off. -/
theorem trim_padded {gap t trail : Text} (hg : gap.allBlank = true) (ht : trail.allBlank = true)
    (h : trim t = t) : trim (gap ++ t ++ trail) = t := by
  obtain ⟨-, -, -, -, -, hstart, hend⟩ := trim_spec t
  rw [h] at hstart hend
  exact trim_eq hg ht hstart hend

theorem mem_of_mem_trim {c : Char} {t : Text} (h : c ∈ trim t) : c ∈ t := by
  obtain ⟨gap, trail, -, -, ht, -, -⟩ := trim_spec t
  rw [ht]
  simp [h]

theorem not_mem_of_allBlank {c : Char} {t : Text} (h : t.allBlank = true)
    (hc : isBlank c = false) : c ∉ t := by
  intro hmem
  simp [allBlank_iff.mp h c hmem] at hc

end Stencil.Text
