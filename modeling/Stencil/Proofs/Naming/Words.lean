import Stencil.Naming

/-! The words of a label. They are its stretches between separators: put together they hold all
other characters of the label, and two of these stand in different words just when there is a
separator between them. -/

namespace Stencil.Naming

/-- A word of a label: it is not empty, and no separator stands in it. -/
def IsWord (w : Text) : Prop := w ≠ [] ∧ ∀ c ∈ w, isSeparator c = false

theorem isWord_cons {c : Char} {t : Text} (hc : isSeparator c = false)
    (ht : ∀ x ∈ t, isSeparator x = false) : IsWord (c :: t) :=
  ⟨List.cons_ne_nil c t, List.forall_mem_cons.mpr ⟨hc, ht⟩⟩

theorem IsWord.append {w t : Text} (h : IsWord w) (ht : ∀ x ∈ t, isSeparator x = false) :
    IsWord (w ++ t) :=
  ⟨by simp [h.1], List.forall_mem_append.mpr ⟨h.2, ht⟩⟩

/-- The characters of a text that are no separators. -/
def lettersOf (t : Text) : Text := t.filter (!isSeparator ·)

@[simp] theorem lettersOf_append (t u : Text) : lettersOf (t ++ u) = lettersOf t ++ lettersOf u := by
  simp [lettersOf]

theorem lettersOf_separator {c : Char} (h : isSeparator c = true) (t : Text) :
    lettersOf (c :: t) = lettersOf t := by
  simp [lettersOf, h]

theorem lettersOf_letter {c : Char} (h : isSeparator c = false) (t : Text) :
    lettersOf (c :: t) = c :: lettersOf t := by
  simp [lettersOf, h]

theorem lettersOf_eq_self {t : Text} (h : ∀ c ∈ t, isSeparator c = false) : lettersOf t = t := by
  rw [lettersOf, List.filter_eq_self]
  intro c hc
  simp [h c hc]

/-! ## Cutting at separators -/

@[simp] theorem words_nil : words [] = [] := rfl

/-- A separator ends a word and starts another one. -/
theorem words_append_separator {c : Char} (h : isSeparator c = true) (t u : Text) :
    words (t ++ c :: u) = words t ++ words u := by
  rw [words, List.splitOnP_append_cons t u h, List.filter_append, words, words]

theorem words_separator {c : Char} (h : isSeparator c = true) (t : Text) :
    words (c :: t) = words t :=
  words_append_separator h [] t

theorem words_of_isWord {w : Text} (h : IsWord w) : words w = [w] := by
  rw [words, List.splitOnP_eq_singleton h.2]
  simp [h.1]

/-- A letter is a word of its own, or it stands at the start of the first word of what follows. -/
theorem words_letter {c : Char} (h : isSeparator c = false) (t : Text) :
    words (c :: t) = [c] :: words t ∨
      ∃ w ws, words t = w :: ws ∧ words (c :: t) = (c :: w) :: ws := by
  have hword : IsWord [c] := isWord_cons h (by simp)
  cases t with
  | nil => exact .inl (words_of_isWord hword)
  | cons d t =>
      cases hd : isSeparator d with
      | true =>
          have hcut := words_append_separator hd [c] t
          rw [words_of_isWord hword] at hcut
          exact .inl (by rw [words_separator hd]; exact hcut)
      | false =>
          obtain ⟨first, rest, hsplit⟩ :=
            List.exists_cons_of_ne_nil (List.splitOnP_ne_nil isSeparator t)
          refine .inr ⟨d :: first, rest.filter (!·.isEmpty), ?_, ?_⟩
          · simp [words, List.splitOnP_cons_eq_if_modifyHead, hd, hsplit]
          · simp [words, List.splitOnP_cons_eq_if_modifyHead, h, hd, hsplit]

/-- A word at the start of a label is the start of its first word. -/
theorem words_append {w : Text} (h : IsWord w) (t : Text) :
    ∃ more rest, words (w ++ t) = (w ++ more) :: rest := by
  cases hfind : t.find? isSeparator with
  | none =>
      have hmore : IsWord (w ++ t) := h.append (by simpa using hfind)
      exact ⟨t, [], words_of_isWord hmore⟩
  | some c =>
      obtain ⟨hc, more, rest, rfl, hmore⟩ := List.find?_eq_some_iff_append.mp hfind
      have hword : IsWord (w ++ more) := h.append (by simpa using hmore)
      refine ⟨more, words rest, ?_⟩
      rw [← List.append_assoc, words_append_separator hc, words_of_isWord hword]
      rfl

/-! ## What the words hold -/

theorem isWord_of_mem {label w : Text} (h : w ∈ words label) : IsWord w := by
  induction label generalizing w with
  | nil => simp at h
  | cons c t ih =>
      cases hc : isSeparator c with
      | true => exact ih (words_separator hc t ▸ h)
      | false =>
          rcases words_letter hc t with halone | ⟨first, rest, ht, hfirst⟩
          · rw [halone] at h
            rcases List.mem_cons.mp h with rfl | h
            · exact isWord_cons hc (by simp)
            · exact ih h
          · rw [hfirst] at h
            rcases List.mem_cons.mp h with rfl | h
            · have hword : IsWord first := ih (by simp [ht])
              exact isWord_cons hc hword.2
            · exact ih (by simp [ht, h])

theorem flatten_words (label : Text) : (words label).flatten = lettersOf label := by
  induction label with
  | nil => rfl
  | cons c t ih =>
      cases hc : isSeparator c with
      | true => rw [words_separator hc, lettersOf_separator hc, ih]
      | false =>
          rw [lettersOf_letter hc, ← ih]
          rcases words_letter hc t with halone | ⟨first, rest, ht, hfirst⟩
          · rw [halone]
            rfl
          · rw [hfirst, ht]
            rfl

/-! ## Letters in words -/

/-- The number of the word that holds a letter, which is given by its number among the letters of
all words. -/
def wordOf : List Text → Nat → Nat
  | [], _ => 0
  | w :: ws, n => if n < w.length then 0 else wordOf ws (n - w.length) + 1

theorem wordOf_cons_eq_zero {w : Text} {ws : List Text} {n : Nat} :
    wordOf (w :: ws) n = 0 ↔ n < w.length := by
  rw [wordOf]
  split <;> simp_all

/-- A letter in front moves all others on, but it keeps the words apart that are apart. -/
theorem wordOf_letter {c : Char} (h : isSeparator c = false) (t : Text) (m n : Nat) :
    wordOf (words (c :: t)) (m + 1) = wordOf (words (c :: t)) (n + 1) ↔
      wordOf (words t) m = wordOf (words t) n := by
  rcases words_letter h t with halone | ⟨first, rest, ht, hfirst⟩
  · have hmove : ∀ k, wordOf ([c] :: words t) (k + 1) = wordOf (words t) k + 1 := by
      intro k
      simp [wordOf]
    rw [halone, hmove, hmove, Nat.add_right_cancel_iff]
  · have hmove : ∀ k, wordOf ((c :: first) :: rest) (k + 1) = wordOf (first :: rest) k := by
      intro k
      simp [wordOf]
    rw [hfirst, ht, hmove, hmove]

/-- The first letter stands in the first word, with the letters up to the first separator. -/
theorem wordOf_first {c d : Char} (hc : isSeparator c = false) (hd : isSeparator d = false)
    (between rest : Text) :
    wordOf (words (c :: (between ++ d :: rest))) 0 =
        wordOf (words (c :: (between ++ d :: rest))) (lettersOf (c :: between)).length ↔
      ∀ x ∈ between, isSeparator x = false := by
  have hfirst : IsWord [c] := isWord_cons hc (by simp)
  obtain ⟨more, ws, hwords⟩ := words_append hfirst (between ++ d :: rest)
  rw [List.singleton_append] at hwords
  have hzero : wordOf (words (c :: (between ++ d :: rest))) 0 = 0 := by
    rw [hwords, wordOf_cons_eq_zero]
    simp
  rw [hzero, eq_comm]
  constructor
  · intro h
    cases hfind : between.find? isSeparator with
    | none =>
        intro x hx
        simpa using List.find?_eq_none.mp hfind x hx
    | some s =>
        obtain ⟨hs, front, back, rfl, hfront⟩ := List.find?_eq_some_iff_append.mp hfind
        have hword : IsWord (c :: front) := isWord_cons hc (by simpa using hfront)
        have hcut : words (c :: (front ++ s :: back ++ d :: rest)) =
            (c :: front) :: words (back ++ d :: rest) := by
          have := words_append_separator hs (c :: front) (back ++ d :: rest)
          rw [words_of_isWord hword] at this
          simpa using this
        rw [hcut, wordOf_cons_eq_zero, ← List.cons_append, lettersOf_append,
          lettersOf_eq_self hword.2, List.length_append] at h
        omega
  · intro h
    have hword : IsWord (c :: between ++ [d]) := (isWord_cons hc h).append (by simpa using hd)
    obtain ⟨more, ws, hwords⟩ := words_append hword rest
    have hlabel : c :: (between ++ d :: rest) = c :: between ++ [d] ++ rest := by simp
    rw [hlabel, hwords, wordOf_cons_eq_zero, lettersOf_letter hc, lettersOf_eq_self h]
    simp

/-- Two letters stand in one word just when there is no separator between them. -/
theorem wordOf_eq_iff {c d : Char} (hc : isSeparator c = false) (hd : isSeparator d = false)
    (before between rest : Text) :
    wordOf (words (before ++ c :: (between ++ d :: rest))) (lettersOf before).length =
        wordOf (words (before ++ c :: (between ++ d :: rest)))
          (lettersOf (before ++ c :: between)).length ↔
      ∀ x ∈ between, isSeparator x = false := by
  induction before with
  | nil => exact wordOf_first hc hd between rest
  | cons x before ih =>
      cases hx : isSeparator x with
      | true =>
          simp only [List.cons_append, words_separator hx, lettersOf_separator hx]
          exact ih
      | false =>
          simp only [List.cons_append, lettersOf_letter hx, List.length_cons]
          rw [wordOf_letter hx]
          exact ih

end Stencil.Naming
