import Stencil.Proofs.Wrap.Rows

/-! Filling lines with one word of foresight. A filler places a word as soon as it fits and may take
it back at the next word, when the closing separator turns out not to fit. It thereby fills the same
lines as one that looks at the next word first and never takes a word back. -/

namespace Stencil.Wrap

/-! ## Looking ahead -/

/-- Whether a word goes on a line, when the words `rest` follow it. It must fit, and so must the
next word or the closing separator behind it, unless it is the last word. -/
def goesOn (width : Nat) (s : Separators) (line word : Text) (rest : List Text) : Bool :=
  let longer := line ++ s.between ++ word
  longer.length ≤ width &&
    match rest with
    | [] => true
    | next :: _ => (longer ++ s.between ++ next).length ≤ width ||
        (longer ++ s.closing).length ≤ width

theorem goesOn_of_not_fits {width : Nat} {s : Separators} {line word : Text} {rest : List Text}
    (h : ¬ (line ++ s.between ++ word).length ≤ width) : goesOn width s line word rest = false := by
  unfold goesOn
  simp only [decide_eq_false h, Bool.false_and]

theorem goesOn_nil {width : Nat} {s : Separators} {line word : Text} :
    goesOn width s line word [] = true ↔ (line ++ s.between ++ word).length ≤ width := by
  simp [goesOn]

theorem goesOn_cons {width : Nat} {s : Separators} {line word next : Text} {rest : List Text} :
    goesOn width s line word (next :: rest) = true ↔
      (line ++ s.between ++ word).length ≤ width ∧
        ((line ++ s.between ++ word ++ s.between ++ next).length ≤ width ∨
          (line ++ s.between ++ word ++ s.closing).length ≤ width) := by
  unfold goesOn
  simp only [Bool.and_eq_true, Bool.or_eq_true, decide_eq_true_eq]

/-- The lines from a line on that already has words. A word that does not go on the line opens the
next one. -/
def continued (width : Nat) (s : Separators) (line : Text) : List Text → List Text
  | [] => [line]
  | word :: rest =>
    if goesOn width s line word rest then continued width s (line ++ s.between ++ word) rest
    else (line ++ s.closing) :: continued width s word rest

/-- Fills lines with the words, looking one word ahead. -/
def fillAhead (words : List Text) (width : Nat) (s first : Separators) : List Text :=
  match words with
  | [] => []
  | word :: rest => continued width s (first.first ++ word) rest

/-! ## The filler -/

namespace Filler

/-- The text of the line being filled. -/
def text (f : Filler) : Text := f.current.reverse.flatMap Piece.text

variable {f : Filler} {s : Separators} {line word : Text}

theorem Measured.currentWidth_eq (h : f.Measured) : f.currentWidth = f.text.length := by
  have hpieces : ∀ pieces : List Piece,
      (pieces.map Piece.width).sum = (pieces.reverse.flatMap Piece.text).length := by
    intro pieces
    induction pieces with
    | nil => rfl
    | cons piece pieces ih => simp [ih, Piece.width, Piece.text, Nat.add_comm]
  exact h.trans (hpieces f.current)

/-- The line being filled has a single word, which stays where it is. -/
structure Opened (f : Filler) (line : Text) : Prop where
  single : ∃ piece, f.current = [piece]
  text : f.text = line
  measured : f.Measured

/-- The last word of the line being filled may still be taken back; `line` is what stands before
it. -/
structure Pending (s : Separators) (f : Filler) (line word : Text) : Prop where
  current : ∃ earlier, f.current = ⟨s.between, word⟩ :: earlier ∧ earlier ≠ [] ∧
    earlier.reverse.flatMap Piece.text = line
  measured : f.Measured
  fits : (line ++ s.between ++ word).length ≤ f.width

theorem Pending.text (h : Pending s f line word) : f.text = line ++ s.between ++ word := by
  obtain ⟨earlier, hc, -, rfl⟩ := h.current
  simp [Filler.text, hc, Piece.text]

/-! ## Placing a word -/

/-- A word that fits behind others is pending. -/
theorem place_of_fits (hc : f.current ≠ []) (hm : f.Measured)
    (hfits : (f.text ++ s.between ++ word).length ≤ f.width) :
    f.place word s = f.push s.between word ∧
      Pending s (f.push s.between word) f.text word := by
  refine ⟨?_, ⟨f.current, rfl, hc, rfl⟩, hm.push _ _, hfits⟩
  have hwidth : f.currentWidth + s.between.length + word.length ≤ f.width := by
    rw [hm.currentWidth_eq]
    simpa [Nat.add_assoc] using hfits
  fun_cases f.place word s with
  | case1 hnone => exact (hc hnone).elim
  | case2 => rfl
  | case3 _ _ _ hno => exact (hno hwidth).elim
  | case4 _ _ _ hno => exact (hno hwidth).elim

theorem opened_wrap (f : Filler) (word : Text) (s : Separators) :
    Opened (f.wrap word s) word ∧ (f.wrap word s).lines = f.lines ++ [f.text ++ s.closing] := by
  refine ⟨⟨⟨_, rfl⟩, ?_, ?_⟩, rfl⟩
  · simp [Filler.text, wrap, push, close, Piece.text]
  · exact (f.measured_close s.closing).push _ _

/-- A word that does not fit opens a line if the line before it can be closed as it is. -/
theorem place_of_closed (hc : f.current ≠ []) (hm : f.Measured)
    (hfits : ¬ (f.text ++ s.between ++ word).length ≤ f.width)
    (hroom : (f.text ++ s.closing).length ≤ f.width ∨ ∃ piece, f.current = [piece]) :
    f.place word s = f.wrap word s := by
  have hwidth : ¬ f.currentWidth + s.between.length + word.length ≤ f.width := by
    rw [hm.currentWidth_eq]
    simpa [Nat.add_assoc] using hfits
  fun_cases f.place word s with
  | case1 hnone => exact (hc hnone).elim
  | case2 _ _ _ hyes => exact (hwidth hyes).elim
  | case3 => rfl
  | case4 last earlier hcurrent _ hmany =>
      refine (hmany ?_).elim
      rcases hroom with hroom | ⟨piece, hpiece⟩
      · left
        rw [hm.currentWidth_eq]
        simpa using hroom
      · right
        rw [hcurrent] at hpiece
        exact (List.cons.inj hpiece).2

/-- A pending word is taken back if the closing separator does not fit behind it. -/
theorem Pending.place (h : Pending s f line word) {next : Text}
    (hfits : ¬ (f.text ++ s.between ++ next).length ≤ f.width)
    (hroom : ¬ (f.text ++ s.closing).length ≤ f.width) :
    ∃ g, f.place next s = g.place next s ∧ Opened g word ∧ g.width = f.width ∧
      g.lines = f.lines ++ [line ++ s.closing] := by
  obtain ⟨earlier, hc, hne, rfl⟩ := h.current
  have hm := h.measured
  obtain ⟨hopened, hlines⟩ := opened_wrap (f.back ⟨s.between, word⟩ earlier) word s
  refine ⟨_, ?_, hopened, rfl, hlines⟩
  fun_cases f.place next s with
  | case1 hnone => simp [hc] at hnone
  | case2 _ _ _ hyes =>
      rw [hm.currentWidth_eq] at hyes
      exact (hfits (by simpa [Nat.add_assoc] using hyes)).elim
  | case3 last others hcurrent _ hclosed =>
      obtain ⟨rfl, rfl⟩ := List.cons.inj (hc.symm.trans hcurrent)
      rcases hclosed with hclosed | hnone
      · rw [hm.currentWidth_eq] at hclosed
        exact (hroom (by simpa using hclosed)).elim
      · exact (hne hnone).elim
  | case4 last others hcurrent =>
      obtain ⟨rfl, rfl⟩ := List.cons.inj (hc.symm.trans hcurrent)
      rfl

/-! ## All words -/

/-- Both fillers fill the same lines with the words that are left, whether the last word of the line
is settled, or pending so that the filler with foresight has still to decide on it. -/
structure Meets (s : Separators) (rest : List Text) : Prop where
  opened : ∀ {f line}, Opened f line →
    (rest.foldl (fun f word => f.place word s) f).finish = f.lines ++ continued f.width s line rest
  pending : ∀ {f line word}, Pending s f line word →
    (rest.foldl (fun f word => f.place word s) f).finish =
      f.lines ++ continued f.width s line (word :: rest)

/-- A word that leaves the words before it where they are. -/
theorem Meets.settled {rest : List Text} {next : Text} (h : Meets s rest) (hc : f.current ≠ [])
    (hm : f.Measured)
    (hkept : (f.text ++ s.between ++ next).length ≤ f.width ∨
      (f.text ++ s.closing).length ≤ f.width ∨ ∃ piece, f.current = [piece]) :
    ((next :: rest).foldl (fun f word => f.place word s) f).finish =
      f.lines ++ continued f.width s f.text (next :: rest) := by
  rw [List.foldl_cons]
  by_cases hfits : (f.text ++ s.between ++ next).length ≤ f.width
  · obtain ⟨hplace, hpending⟩ := place_of_fits hc hm hfits
    rw [hplace]
    exact h.pending hpending
  · obtain ⟨hopened, hlines⟩ := opened_wrap f next s
    rw [place_of_closed hc hm hfits (hkept.resolve_left hfits), h.opened hopened, hlines, continued,
      goesOn_of_not_fits hfits, List.append_assoc]
    rfl

theorem meets_nil (s : Separators) : Meets s [] where
  opened {f line} h := by
    obtain ⟨piece, hc⟩ := h.single
    rw [← h.text]
    simp [finish, newline, close, continued, text, hc]
  pending {f line word} h := by
    obtain ⟨earlier, hc, -, -⟩ := h.current
    rw [continued, if_pos (goesOn_nil.mpr h.fits), continued, ← h.text]
    simp [finish, newline, close, text, hc]

/-- If the next word ends the line, the pending one is taken back and opens another with it. -/
theorem Meets.cons {rest : List Text} (h : Meets s rest) (next : Text) :
    Meets s (next :: rest) := by
  have hopened : ∀ {f line}, Opened f line →
      ((next :: rest).foldl (fun f word => f.place word s) f).finish =
        f.lines ++ continued f.width s line (next :: rest) := by
    intro f line ho
    obtain ⟨piece, hc⟩ := ho.single
    rw [← ho.text]
    exact h.settled (by simp [hc]) ho.measured (.inr (.inr ⟨piece, hc⟩))
  refine ⟨hopened, ?_⟩
  intro f line word hp
  obtain ⟨earlier, hc, -, -⟩ := hp.current
  by_cases hkept : (f.text ++ s.between ++ next).length ≤ f.width ∨
      (f.text ++ s.closing).length ≤ f.width
  · have hyes : goesOn f.width s line word (next :: rest) = true := by
      rw [hp.text] at hkept
      exact goesOn_cons.mpr ⟨hp.fits, hkept⟩
    rw [continued, if_pos hyes, ← hp.text]
    refine h.settled (by simp [hc]) hp.measured ?_
    exact hkept.imp_right .inl
  · obtain ⟨hfits, hroom⟩ := not_or.mp hkept
    have hno : ¬ goesOn f.width s line word (next :: rest) = true := by
      rw [hp.text] at hkept
      exact fun hyes => hkept (goesOn_cons.mp hyes).2
    obtain ⟨g, hplace, hg, hwidth, hlines⟩ := hp.place hfits hroom
    rw [continued, if_neg hno, List.foldl_cons, hplace, ← List.foldl_cons, hopened hg, hwidth,
      hlines, List.append_assoc]
    rfl

theorem meets (s : Separators) (rest : List Text) : Meets s rest := by
  induction rest with
  | nil => exact meets_nil s
  | cons next rest ih => exact ih.cons next

end Filler

/-! ## Groups of words -/

/-- The lines of groups of words. Each line but the last is closed, and only the first is opened
with a separator. -/
def rendered (opening : Text) (s : Separators) : List (List Text) → List Text
  | [] => []
  | [group] => [opening ++ Text.joined s.between group]
  | group :: next :: groups =>
    (opening ++ Text.joined s.between group ++ s.closing) :: rendered [] s (next :: groups)

theorem joined_append_singleton (mark word : Text) {group : List Text} (h : group ≠ []) :
    Text.joined mark (group ++ [word]) = Text.joined mark group ++ mark ++ word := by
  unfold Text.joined
  induction group with
  | nil => exact (h rfl).elim
  | cons first more ih =>
      cases more with
      | nil => simp
      | cons second more =>
          have hrest := ih (List.cons_ne_nil _ _)
          rw [List.cons_append] at hrest
          rw [List.cons_append, List.cons_append, List.intercalate_cons_cons, hrest,
            List.intercalate_cons_cons]
          simp only [List.append_assoc]

/-- The words that are left join the group on the line or make up groups of their own. -/
theorem continued_groups (width : Nat) (s : Separators) (opening : Text) (group rest : List Text)
    (h : group ≠ []) : ∃ groups, groups ≠ [] ∧ groups.flatten = group ++ rest ∧ [] ∉ groups ∧
      continued width s (opening ++ Text.joined s.between group) rest =
        rendered opening s groups := by
  induction rest generalizing opening group with
  | nil => exact ⟨[group], by simp, by simp, by simpa using h.symm, rfl⟩
  | cons word rest ih =>
      rw [continued]
      split
      · have hline : opening ++ Text.joined s.between group ++ s.between ++ word =
            opening ++ Text.joined s.between (group ++ [word]) := by
          rw [joined_append_singleton _ _ h]
          simp
        rw [hline, List.append_cons]
        exact ih opening (group ++ [word]) (by simp)
      · obtain ⟨groups, hne, hflat, hnone, hlines⟩ := ih [] [word] (by simp)
        obtain ⟨next, more, rfl⟩ := List.exists_cons_of_ne_nil hne
        refine ⟨group :: next :: more, by simp, by simpa using hflat, ?_, ?_⟩
        · exact fun hmem => (List.mem_cons.mp hmem).elim h.symm hnone
        · rw [rendered, ← hlines]
          simp [Text.joined]

/-! ## Filling -/

/-- Filling lines by taking words back is filling them with one word of foresight. No line is
without a word, each line but the last is closed, and only the first is opened with a separator. -/
theorem fill_eq_fillAhead (words : List Text) (width : Nat) (s first : Separators) :
    fill words width s first = fillAhead words width s first ∧
      ∃ groups, groups.flatten = words ∧ [] ∉ groups ∧
        fillAhead words width s first = rendered first.first s groups := by
  cases words with
  | nil => exact ⟨rfl, [], rfl, by simp, rfl⟩
  | cons word rest =>
      constructor
      · have hplace : (Filler.empty width).place word first =
            (Filler.empty width).push first.first word := by
          rw [Filler.place]
          rfl
        have hopened : Filler.Opened ((Filler.empty width).push first.first word)
            (first.first ++ word) := by
          have hempty : (Filler.empty width).Measured := rfl
          exact ⟨⟨_, rfl⟩, by simp [Filler.text, Filler.push, Filler.empty, Piece.text],
            hempty.push _ _⟩
        rw [fill, Filler.placeAll, hplace, (Filler.meets s rest).opened hopened]
        rfl
      · obtain ⟨groups, -, hflat, hnone, hlines⟩ :=
          continued_groups width s first.first [word] rest (by simp)
        refine ⟨groups, hflat, hnone, ?_⟩
        rw [← hlines]
        simp [fillAhead, Text.joined]

/-- The word `bb` fits behind `aa`, but neither `cc` nor the closing separator fits behind it. -/
example : fillAhead ["aa".toList, "bb".toList, "cc".toList] 6 ⟨" ".toList, ";;".toList, []⟩
    default = ["aa;;".toList, "bb cc".toList] := by decide

end Stencil.Wrap
