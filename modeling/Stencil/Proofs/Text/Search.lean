import Stencil.Text

/-! Search for the leftmost occurrence of a mark in a text, texts in which no mark starts, and
splitting a text into its lines. -/

namespace Stencil.Text

/-- The text before and the text after the leftmost `mark`, if there is one. -/
def breakOn (mark : Text) : Text → Option (Text × Text)
  | [] => if mark = [] then some ([], []) else none
  | c :: rest =>
    match mark.isPrefixOf? (c :: rest) with
    | some after => some ([], after)
    | none => (breakOn mark rest).map fun (before, after) => (c :: before, after)

/-! ## Prefixes -/

theorem isPrefixOf?_eq_some_iff {mark t after : Text} :
    mark.isPrefixOf? t = some after ↔ t = mark ++ after := by
  induction mark generalizing t with
  | nil =>
      change some t = some after ↔ _
      simp
  | cons m mark ih =>
      cases t with
      | nil =>
          change none = some after ↔ _
          simp
      | cons c t =>
          change (if m == c then mark.isPrefixOf? t else none) = some after ↔ _
          by_cases h : m = c
          · subst h
            simp [ih]
          · simp [h, Ne.symm h]

theorem isPrefixOf?_eq_none_iff {mark t : Text} :
    mark.isPrefixOf? t = none ↔ ¬ mark <+: t := by
  rw [Option.eq_none_iff_forall_ne_some]
  constructor
  · rintro h ⟨after, rfl⟩
    exact h after (isPrefixOf?_eq_some_iff.mpr rfl)
  · rintro h after ha
    exact h ⟨after, (isPrefixOf?_eq_some_iff.mp ha).symm⟩

/-! ## The leftmost mark -/

theorem breakOn_mark_append {mark after : Text} :
    breakOn mark (mark ++ after) = some ([], after) := by
  cases h : mark ++ after with
  | nil =>
      obtain ⟨rfl, rfl⟩ := List.append_eq_nil_iff.mp h
      rfl
  | cons c rest => rw [breakOn, isPrefixOf?_eq_some_iff.mpr h.symm]

theorem breakOn_cons_of_not_marked {mark rest : Text} {c : Char} (h : ¬ mark <+: c :: rest) :
    breakOn mark (c :: rest) =
      (breakOn mark rest).map fun (before, after) => (c :: before, after) := by
  rw [breakOn, isPrefixOf?_eq_none_iff.mpr h]

/-- `t` is `before`, `mark` and `after`, and no `mark` stands further to the left. -/
structure Leftmost (mark t before after : Text) : Prop where
  eq : t = before ++ mark ++ after
  first : ∀ p q, t = p ++ mark ++ q → before.length ≤ p.length

theorem breakOn_leftmost {mark t before after : Text} (h : breakOn mark t = some (before, after)) :
    Leftmost mark t before after := by
  induction t generalizing before after with
  | nil =>
      simp only [breakOn, Option.ite_none_right_eq_some, Option.some.injEq, Prod.mk.injEq] at h
      obtain ⟨rfl, rfl, rfl⟩ := h
      exact ⟨rfl, by simp⟩
  | cons c rest ih =>
      by_cases hp : mark <+: c :: rest
      · obtain ⟨tail, ht⟩ := hp
        rw [← ht, breakOn_mark_append, Option.some.injEq, Prod.mk.injEq] at h
        obtain ⟨rfl, rfl⟩ := h
        exact ⟨by simp [ht], by simp⟩
      · rw [breakOn_cons_of_not_marked hp, Option.map_eq_some_iff] at h
        obtain ⟨⟨b, a⟩, hb, hba⟩ := h
        obtain ⟨rfl, rfl⟩ := Prod.mk.inj hba
        have hl := ih hb
        refine ⟨by simp [hl.eq], ?_⟩
        intro p q hpq
        cases p with
        | nil => exact (hp ⟨q, by simpa using hpq.symm⟩).elim
        | cons d p =>
            have := hl.first p q (by simpa using (List.cons.inj hpq).2)
            simpa using this

theorem breakOn_eq_none_iff {mark t : Text} : breakOn mark t = none ↔ ¬ mark <:+: t := by
  induction t with
  | nil => simp [breakOn]
  | cons c rest ih =>
      by_cases hp : mark <+: c :: rest
      · obtain ⟨tail, ht⟩ := hp
        rw [← ht, breakOn_mark_append]
        simp [(List.prefix_append mark tail).isInfix]
      · rw [breakOn_cons_of_not_marked hp, Option.map_eq_none_iff, ih, List.infix_cons_iff]
        simp [hp]

/-- The search finds the leftmost mark and nothing else. -/
theorem breakOn_eq_some_iff {mark t before after : Text} :
    breakOn mark t = some (before, after) ↔ Leftmost mark t before after := by
  refine ⟨breakOn_leftmost, ?_⟩
  intro h
  cases hb : breakOn mark t with
  | none => exact (breakOn_eq_none_iff.mp hb ⟨before, after, h.eq.symm⟩).elim
  | some found =>
      obtain ⟨b, a⟩ := found
      have hl := breakOn_leftmost hb
      have hlen : b.length = before.length :=
        Nat.le_antisymm (hl.first _ _ h.eq) (h.first _ _ hl.eq)
      have he : b ++ (mark ++ a) = before ++ (mark ++ after) := by
        simpa using hl.eq.symm.trans h.eq
      obtain ⟨rfl, hma⟩ := List.append_inj he hlen
      rw [List.append_cancel_left hma]

/-- The text before the leftmost mark holds no mark. -/
theorem Leftmost.not_infix_before {mark t before after : Text} (h : Leftmost mark t before after)
    (hm : mark ≠ []) : ¬ mark <:+: before := by
  rintro ⟨p, q, hpq⟩
  have hle := h.first p (q ++ mark ++ after) (by simp [h.eq, ← hpq])
  have hlen := congrArg List.length hpq
  have hpos := List.length_pos_iff.mpr hm
  simp only [List.length_append] at hlen
  omega

theorem Leftmost.length_lt {mark t before after : Text} (h : Leftmost mark t before after)
    (hm : mark ≠ []) : after.length < t.length := by
  have hpos := List.length_pos_iff.mpr hm
  rw [h.eq]
  simp only [List.length_append]
  omega

theorem cut_eq_none_iff {x : Char} {t : Text} : cut x t = none ↔ x ∉ t := by
  induction t with
  | nil => simp [cut]
  | cons c t ih =>
      rw [cut, List.mem_cons, not_or, ← ih]
      by_cases hc : c = x
      · simp [hc]
      · simp [hc, Ne.symm hc]

theorem cut_append {x : Char} {before : Text} (h : x ∉ before) (after : Text) :
    cut x (before ++ x :: after) = some (before, after) := by
  induction before with
  | nil => simp [cut]
  | cons c before ih =>
      rw [List.mem_cons, not_or] at h
      rw [List.cons_append, cut, if_neg (Ne.symm h.1), ih h.2]
      rfl

/-! ## Texts in front of a mark -/

/-- No mark starts in the text, whatever follows it. -/
def Clear (mark : Text) : Text → Prop
  | [] => True
  | c :: t => (∀ more, ¬ mark <+: c :: (t ++ more)) ∧ Clear mark t

theorem Clear.append {mark t u : Text} (ht : Clear mark t) (hu : Clear mark u) :
    Clear mark (t ++ u) := by
  induction t with
  | nil => exact hu
  | cons c t ih =>
      rw [List.cons_append]
      refine ⟨fun more => ?_, ih ht.2⟩
      rw [List.append_assoc]
      exact ht.1 (u ++ more)

/-- The search passes over a clear text. -/
theorem breakOn_append {mark t : Text} (h : Clear mark t) (rest : Text) :
    breakOn mark (t ++ rest) =
      (breakOn mark rest).map fun (before, after) => (t ++ before, after) := by
  induction t with
  | nil => simp
  | cons c t ih =>
      rw [List.cons_append, breakOn_cons_of_not_marked (h.1 rest), ih h.2, Option.map_map]
      rfl

theorem breakOn_of_clear {mark t : Text} (h : Clear mark t) (after : Text) :
    breakOn mark (t ++ mark ++ after) = some (t, after) := by
  rw [List.append_assoc, breakOn_append h, breakOn_mark_append]
  simp

theorem clear_of_not_mem {mark t : Text} {x : Char} (hx : x ∈ mark.head?) (h : x ∉ t) :
    Clear mark t := by
  induction t with
  | nil => trivial
  | cons c t ih =>
      refine ⟨?_, ih fun hmem => h (List.mem_cons_of_mem _ hmem)⟩
      rintro more ⟨rest, hrest⟩
      obtain ⟨mark, rfl⟩ := List.head?_eq_some_iff.mp hx
      obtain ⟨rfl, -⟩ := List.cons.inj hrest
      exact h (by simp)

section

variable {x : Char} {t before after : Text}

/-- A mark of one character three times does not start in a text that neither holds it nor ends
with the character. -/
theorem clear_of_getLast? (h : ¬ [x, x, x] <:+: t) (hl : t.getLast? ≠ some x) :
    Clear [x, x, x] t := by
  induction t with
  | nil => trivial
  | cons c t ih =>
      rw [List.infix_cons_iff, not_or] at h
      have hlast : t ≠ [] → t.getLast? ≠ some x := by
        intro hne
        rwa [List.getLast?_cons_of_ne_nil hne] at hl
      refine ⟨?_, ?_⟩
      · rintro more hp
        match t with
        | [] =>
            simp only [List.cons_prefix_cons] at hp
            simp [hp.1] at hl
        | [d] =>
            simp only [List.cons_append, List.cons_prefix_cons] at hp
            simp [hp.2.1] at hl
        | d :: e :: t =>
            simp only [List.cons_append, List.cons_prefix_cons] at hp
            exact h.1 (by simp [← hp.1, ← hp.2.1, ← hp.2.2.1])
      · cases t with
        | nil => trivial
        | cons d t => exact ih h.2 (hlast (by simp))

theorem Leftmost.getLast?_ne (h : Leftmost [x, x, x] t before after) :
    before.getLast? ≠ some x := by
  intro hl
  obtain ⟨front, rfl⟩ := List.getLast?_eq_some_iff.mp hl
  have hle := h.first front (x :: after) (by simp [h.eq])
  simp only [List.length_append, List.length_singleton] at hle
  omega

theorem Leftmost.clear (h : Leftmost [x, x, x] t before after) : Clear [x, x, x] before :=
  clear_of_getLast? (h.not_infix_before (by simp)) h.getLast?_ne

end

/-- A mark does not run over a character that it does not hold. -/
theorem not_infix_separated {mark t u : Text} {x : Char} (hx : x ∉ mark) (ht : ¬ mark <:+: t)
    (hu : ¬ mark <:+: u) : ¬ mark <:+: t ++ x :: u := by
  rw [List.infix_append_iff, List.infix_cons_iff]
  rintro (h | (h | h) | ⟨front, back, rfl, hf, hb⟩)
  · exact ht h
  · cases mark with
    | nil => exact ht (List.nil_infix)
    | cons c mark =>
        obtain ⟨rfl, -⟩ := List.cons_prefix_cons.mp h
        exact hx (by simp)
  · exact hu h
  · cases back with
    | nil => exact ht (by simpa using hf.isInfix)
    | cons c back =>
        obtain ⟨rfl, -⟩ := List.cons_prefix_cons.mp hb
        exact hx (by simp)

/-! ## Lines -/

/-- No line of a text holds a line break. -/
theorem not_mem_of_mem_splitOn {x : Char} {t l : Text} (h : l ∈ t.splitOn x) : x ∉ l := by
  induction t generalizing l with
  | nil => simp_all
  | cons c t ih =>
      rw [List.splitOn_cons_eq_if_modifyHead] at h
      obtain ⟨first, rest, hs⟩ := List.exists_cons_of_ne_nil (List.splitOn_ne_nil x t)
      rw [hs] at h ih
      split at h
      · rcases List.mem_cons.mp h with rfl | h
        · simp
        · exact ih h
      · rename_i hc
        rcases List.mem_cons.mp h with rfl | h
        · simp only [List.mem_cons, not_or]
          exact ⟨fun hx => hc (by simp [hx]), ih (by simp)⟩
        · exact ih (List.mem_cons_of_mem first h)

/-- A text without a line break stands at the front of the first line. -/
theorem splitOn_append {x : Char} {t u first : Text} {rest : List Text} (h : x ∉ t)
    (hu : u.splitOn x = first :: rest) : (t ++ u).splitOn x = (t ++ first) :: rest := by
  induction t with
  | nil => exact hu
  | cons c t ih =>
      simp only [List.mem_cons, not_or] at h
      have hc : (c == x) = false := by simpa using Ne.symm h.1
      rw [List.cons_append, List.splitOn_cons_eq_if_modifyHead, hc, ih h.2]
      rfl

/-- There is one line more than line breaks. -/
theorem length_splitOn (x : Char) (t : Text) : (t.splitOn x).length = t.count x + 1 := by
  induction t with
  | nil => simp
  | cons c t ih =>
      rw [List.splitOn_cons_eq_if_modifyHead, List.count_cons]
      split
      · simp [ih]
      · simp [ih]

/-- The lines of a text hold all of it but the line breaks. -/
theorem flatten_splitOn (x : Char) (t : Text) : (t.splitOn x).flatten = t.filter (· != x) := by
  induction t with
  | nil => simp
  | cons c t ih =>
      rw [List.splitOn_cons_eq_if_modifyHead, List.filter_cons, ← ih]
      obtain ⟨first, rest, hs⟩ := List.exists_cons_of_ne_nil (List.splitOn_ne_nil x t)
      rw [hs]
      split
      · rename_i hc
        simp [show c = x by simpa using hc]
      · rename_i hc
        simp [show c ≠ x by simpa using hc]

theorem mem_of_mem_splitOn {c x : Char} {t l : Text} (hl : l ∈ t.splitOn x) (hc : c ∈ l) :
    c ∈ t := by
  have hmem : c ∈ (t.splitOn x).flatten := List.mem_flatten.mpr ⟨l, hl, hc⟩
  rw [flatten_splitOn] at hmem
  exact (List.mem_filter.mp hmem).1

theorem infix_intercalate {mark l : Text} {ls : List Text} (h : l ∈ ls) :
    l <:+: mark.intercalate ls := by
  induction ls with
  | nil => simp at h
  | cons m ls ih =>
      cases ls with
      | nil => simp_all
      | cons n ls =>
          rw [List.intercalate_cons_cons, List.append_assoc]
          rcases List.mem_cons.mp h with rfl | h
          · exact (List.prefix_append _ _).isInfix
          · exact (ih h).trans ((List.suffix_append _ _).trans (List.suffix_append _ _)).isInfix

/-- Texts with a mark between them hold another mark only if one of them does. -/
theorem not_mem_intercalate {x y : Char} {ls : List Text} (hxy : x ≠ y) (h : ∀ l ∈ ls, x ∉ l) :
    x ∉ [y].intercalate ls := by
  induction ls with
  | nil => simp
  | cons l ls ih =>
      have hrest := ih fun m hm => h m (List.mem_cons_of_mem l hm)
      cases ls with
      | nil => simpa using h
      | cons m ls =>
          rw [List.intercalate_cons_cons]
          simp only [List.mem_append, List.mem_singleton, not_or]
          exact ⟨⟨h l List.mem_cons_self, hxy⟩, hrest⟩

theorem infix_of_mem_splitOn {x : Char} {t l : Text} (h : l ∈ t.splitOn x) : l <:+: t := by
  have hin : l <:+: [x].intercalate (t.splitOn x) := infix_intercalate h
  rwa [List.intercalate_splitOn] at hin

end Stencil.Text
