import Stencil.Proofs.Naming.Words
import Stencil.Proofs.Text.Search
import Stencil.Proofs.Text.Upper

/-! Names made from labels. The name of a name is the name itself, and the name in capitals is the
upper case of the name, because upper cases neither make nor remove separators. -/

namespace Stencil.Naming

open Text

/-! ## Words with underscores between them -/

theorem IsWord.not_mem {w : Text} (h : IsWord w) : '_' ∉ w := by
  intro hmem
  simpa using (h.2 '_' hmem).symm.trans (by decide : isSeparator '_' = true)

/-- A name has just the words that it is made of. -/
theorem words_joined {ws : List Text} (h : ∀ w ∈ ws, IsWord w) : words (joined ['_'] ws) = ws := by
  induction ws with
  | nil => rfl
  | cons w ws ih =>
      have hword := h w List.mem_cons_self
      have hrest := ih fun v hv => h v (List.mem_cons_of_mem w hv)
      cases ws with
      | nil => simpa [joined] using words_of_isWord hword
      | cons v ws =>
          rw [joined, List.intercalate_cons_cons, List.append_assoc, List.singleton_append,
            words_append_separator (by decide), words_of_isWord hword]
          exact congrArg (w :: ·) hrest

theorem identifier_identifier (label : Text) : identifier (identifier label) = identifier label := by
  rw [identifier, identifier, words_joined fun w => isWord_of_mem]

/-- No underscore stands at an end of the text or beside another one. -/
structure Spaced (t : Text) : Prop where
  first : t.head? ≠ some '_'
  last : t.getLast? ≠ some '_'
  inner : ¬ ['_', '_'] <:+: t

theorem IsWord.spaced {w : Text} (h : IsWord w) : Spaced w where
  first := fun hfirst => h.not_mem (List.mem_of_head? hfirst)
  last := fun hlast => h.not_mem (List.mem_of_getLast? hlast)
  inner := fun hinner => h.not_mem (hinner.subset (by simp))

/-- A word may be put in front of a name. -/
theorem Spaced.cons {w t : Text} (hw : IsWord w) (h : Spaced t) (ht : t ≠ []) :
    Spaced (w ++ '_' :: t) := by
  refine ⟨?_, ?_, ?_⟩
  · obtain ⟨c, rest, hcons⟩ := List.exists_cons_of_ne_nil hw.1
    simpa [hcons] using hw.spaced.first
  · rw [List.getLast?_append, List.getLast?_cons_of_ne_nil ht, List.getLast?_eq_some_getLast ht,
      Option.some_or, ← List.getLast?_eq_some_getLast ht]
    exact h.last
  · have hclear : Clear ['_', '_'] w := clear_of_not_mem rfl hw.not_mem
    have hsingle : ¬ ['_', '_'] <+: '_' :: t := by
      intro hdouble
      obtain ⟨more, hmore⟩ := (List.cons_prefix_cons.mp hdouble).2
      exact h.first (by simp [← hmore])
    rw [← breakOn_eq_none_iff, breakOn_append hclear, breakOn_cons_of_not_marked hsingle,
      breakOn_eq_none_iff.mpr h.inner]
    rfl

theorem spaced_joined {ws : List Text} (h : ∀ w ∈ ws, IsWord w) : Spaced (joined ['_'] ws) := by
  induction ws with
  | nil => exact ⟨by simp [joined], by simp [joined], by simp [joined]⟩
  | cons w ws ih =>
      have hword := h w List.mem_cons_self
      have hwords : ∀ v ∈ ws, IsWord v := fun v hv => h v (List.mem_cons_of_mem w hv)
      cases ws with
      | nil => simpa [joined] using hword.spaced
      | cons v ws =>
          have hne : joined ['_'] (v :: ws) ≠ [] := by
            intro hnil
            have hread := words_joined hwords
            rw [hnil] at hread
            simp at hread
          rw [joined, List.intercalate_cons_cons, List.append_assoc]
          exact (ih hwords).cons hword hne

/-! ## Upper cases -/

/-- What upper cases must keep of a text: the separators stay, other characters become texts
without them, and nothing is changed twice. -/
structure Casing (upper : Char → Text) : Prop where
  separator : ∀ {c}, isSeparator c = true → upper c = [c]
  letter : ∀ {c}, isSeparator c = false → IsWord (upper c)
  fixed : ∀ {c d}, d ∈ upper c → upper d = [d]

namespace Casing

variable {upper : Char → Text}

theorem isWord (h : Casing upper) {w : Text} (hw : IsWord w) : IsWord (w.flatMap upper) := by
  refine ⟨?_, fun d hd => ?_⟩
  · obtain ⟨c, t, rfl⟩ := List.exists_cons_of_ne_nil hw.1
    simp [(h.letter (hw.2 c List.mem_cons_self)).1]
  · obtain ⟨c, hc, hd⟩ := List.mem_flatMap.mp hd
    exact (h.letter (hw.2 c hc)).2 d hd

theorem words_letters (h : Casing upper) {w : Text} (hw : ∀ c ∈ w, isSeparator c = false) :
    words (w.flatMap upper) = (words w).map (·.flatMap upper) := by
  by_cases hnil : w = []
  · subst hnil
    rfl
  · rw [words_of_isWord ⟨hnil, hw⟩, words_of_isWord (h.isWord ⟨hnil, hw⟩)]
    rfl

/-- The words of an upper case. The letters `w` in front are those since the last separator. -/
theorem words_flatMap (h : Casing upper) {w : Text} (hw : ∀ c ∈ w, isSeparator c = false)
    (t : Text) : words ((w ++ t).flatMap upper) = (words (w ++ t)).map (·.flatMap upper) := by
  induction t generalizing w with
  | nil => simpa using h.words_letters hw
  | cons c t ih =>
      cases hc : isSeparator c with
      | true =>
          have hrest : words (t.flatMap upper) = _ := @ih [] (by simp)
          rw [List.flatMap_append, List.flatMap_cons, h.separator hc, List.singleton_append,
            words_append_separator hc, words_append_separator hc, List.map_append,
            h.words_letters hw, hrest]
          rfl
      | false =>
          have hmore : ∀ d ∈ w ++ [c], isSeparator d = false :=
            List.forall_mem_append.mpr ⟨hw, by simpa using hc⟩
          simpa using ih hmore

theorem flatMap_joined (h : Casing upper) (ws : List Text) :
    (joined ['_'] ws).flatMap upper = joined ['_'] (ws.map (·.flatMap upper)) := by
  have hunderscore : upper '_' = ['_'] := h.separator (by decide)
  induction ws with
  | nil => rfl
  | cons w ws ih =>
      cases ws with
      | nil => simp [joined]
      | cons v ws =>
          simp only [joined, List.map_cons, List.intercalate_cons_cons, List.flatMap_append,
            List.flatMap_singleton, hunderscore] at ih ⊢
          rw [ih]

theorem identifier_flatMap (h : Casing upper) (label : Text) :
    identifier (label.flatMap upper) = (identifier label).flatMap upper := by
  have hwords : words (label.flatMap upper) = _ := @words_flatMap upper h [] (by simp) label
  rw [identifier, identifier, h.flatMap_joined, hwords]
  rfl

theorem flatMap_eq_self {t : Text} (h : ∀ c ∈ t, upper c = [c]) : t.flatMap upper = t := by
  induction t with
  | nil => rfl
  | cons c t ih =>
      obtain ⟨hc, ht⟩ := List.forall_mem_cons.mp h
      rw [List.flatMap_cons, hc, ih ht]
      rfl

theorem flatMap_flatMap (h : Casing upper) (t : Text) :
    (t.flatMap upper).flatMap upper = t.flatMap upper := by
  apply flatMap_eq_self
  intro d hd
  obtain ⟨c, -, hd⟩ := List.mem_flatMap.mp hd
  exact h.fixed hd

end Casing

/-- The code points of the separators. -/
def separatorCodes : List Nat :=
  separators.map Char.toNat ++ List.range' 9 5 ++ [0x20, 0x85, 0xA0, 0x1680] ++
    List.range' 0x2000 11 ++ [0x2028, 0x2029, 0x202F, 0x205F, 0x3000]

theorem mem_separatorCodes {c : Char} (h : isSeparator c = true) : c.toNat ∈ separatorCodes := by
  rw [isSeparator, Bool.or_eq_true] at h
  rcases h with hblank | hmark
  · simp only [isBlank, Bool.or_eq_true, Bool.and_eq_true, decide_eq_true_eq, beq_iff_eq] at hblank
    simp only [separatorCodes, List.mem_append, List.mem_range'_1, List.mem_cons]
    omega
  · simp only [separatorCodes, List.append_assoc]
    exact List.mem_append_left _ (List.mem_map_of_mem (by simpa using hmark))

/-- The table of upper cases does not touch the separators. -/
theorem casing_ofChar : Casing Upper.ofChar where
  separator := by
    intro c hc
    apply Upper.ofChar_eq_self
    exact Upper.not_mem_of_mask (by decide +kernel) (mem_separatorCodes hc)
  letter := by
    intro c hc
    rcases Upper.ofChar_cases c with hself | ⟨-, hne, hcapital⟩
    · rw [hself]
      exact isWord_cons hc (by simp)
    · refine ⟨hne, fun d hd => ?_⟩
      cases hsep : isSeparator d with
      | false => rfl
      | true =>
          have hnot : d.toNat ∉ Upper.capitals :=
            Upper.not_mem_of_mask (by decide +kernel) (mem_separatorCodes hsep)
          exact (hnot (hcapital d hd)).elim
  fixed := Upper.ofChar_of_mem

/-! ## Names -/

/-- The name of a label is made of words with underscores between them. They hold all characters of
the label but the separators, and two of these characters stand in different words just when there
is a separator between them. The name in capitals is the upper case of the name. Both are the names
of themselves. -/
theorem identifier_canonical (label : Text) :
    (∃ ws : List Text, identifier label = joined ['_'] ws ∧ (∀ w ∈ ws, IsWord w) ∧
      ws.flatten = lettersOf label ∧
      ∀ before c between d rest, label = before ++ c :: (between ++ d :: rest) →
        isSeparator c = false → isSeparator d = false →
        (wordOf ws (lettersOf before).length ≠ wordOf ws (lettersOf (before ++ c :: between)).length ↔
          ∃ x ∈ between, isSeparator x = true)) ∧
    Spaced (identifier label) ∧
    identifier (identifier label) = identifier label ∧
    constant label = (identifier label).toUpper ∧
    constant (constant label) = constant label := by
  have hupper : constant label = (identifier label).toUpper := casing_ofChar.identifier_flatMap label
  refine ⟨⟨words label, rfl, fun w => isWord_of_mem, flatten_words label, ?_⟩,
    spaced_joined fun w => isWord_of_mem, identifier_identifier label, hupper, ?_⟩
  · rintro before c between d rest rfl hc hd
    rw [ne_eq, wordOf_eq_iff hc hd]
    simp
  · calc
      constant (constant label) = (identifier (constant label)).toUpper :=
        casing_ofChar.identifier_flatMap (constant label)
      _ = (identifier (identifier label).toUpper).toUpper := by rw [hupper]
      _ = ((identifier (identifier label)).toUpper).toUpper :=
        congrArg Text.toUpper (casing_ofChar.identifier_flatMap (identifier label))
      _ = (identifier label).toUpper := by
        rw [identifier_identifier]
        exact casing_ofChar.flatMap_flatMap (identifier label)
      _ = constant label := hupper.symm

/-- An upper case of two characters stays one word. -/
theorem identifier_canonical_expanded :
    let label := "_ß .a".toList
    label = ['_'] ++ 'ß' :: ([' ', '.'] ++ 'a' :: []) ∧
      isSeparator 'ß' = false ∧ isSeparator 'a' = false ∧
      (∃ ws, identifier label = joined ['_'] ws ∧
        wordOf ws (lettersOf ['_']).length ≠
          wordOf ws (lettersOf (['_'] ++ 'ß' :: [' ', '.'])).length) ∧
      constant label = "SS_A".toList := by
  intro label
  obtain ⟨⟨ws, hname, -, -, hapart⟩, -, -, hupper, -⟩ := identifier_canonical label
  have hsharp : isSeparator 'ß' = false := by decide
  have hletter : isSeparator 'a' = false := by decide
  refine ⟨rfl, hsharp, hletter, ⟨ws, hname, ?_⟩, ?_⟩
  · exact (hapart ['_'] 'ß' [' ', '.'] 'a' [] rfl hsharp hletter).mpr ⟨' ', by simp, by decide⟩
  · rw [hupper]
    decide

end Stencil.Naming
