import Mathlib.Data.List.Chain
import Stencil.Proofs.Wrap.Ahead

/-! How wide filled lines are. A line with two words or more is within the width, the closing
separator included, unless a word has been taken off it that takes less room there than that
separator. -/

namespace Stencil.Wrap

/-! ## Lines in pieces -/

/-- The text of the pieces of a line. -/
def lineText (pieces : List Piece) : Text := pieces.flatMap Piece.text

/-- The texts of lines in pieces. Each line but the last is closed. -/
def closedTexts (closing : Text) : List (List Piece) → List Text
  | [] => []
  | [last] => [lineText last]
  | line :: next :: lines => (lineText line ++ closing) :: closedTexts closing (next :: lines)

theorem closedTexts_concat (closing : Text) (lines : List (List Piece)) (last : List Piece) :
    closedTexts closing (lines ++ [last]) =
      lines.map (fun line => lineText line ++ closing) ++ [lineText last] := by
  induction lines with
  | nil => rfl
  | cons line lines ih =>
      cases lines with
      | nil => rfl
      | cons next lines => simpa [closedTexts] using ih

/-- Each text is that of a line, and a line with another one below it is closed. -/
theorem line_of_text {closing text : Text} {lines : List (List Piece)} {number : Nat}
    (h : (closedTexts closing lines)[number]? = some text) :
    ∃ line, lines[number]? = some line ∧
      (lines.getLast? = some line ∧ text = lineText line ∨
        ∃ next, lines[number + 1]? = some next ∧ text = lineText line ++ closing) := by
  fun_induction closedTexts closing lines generalizing number with
  | case1 => simp at h
  | case2 last =>
      cases number with
      | zero => exact ⟨last, rfl, .inl ⟨rfl, (Option.some.inj h).symm⟩⟩
      | succ number => simp at h
  | case3 first next lines ih =>
      cases number with
      | zero => exact ⟨first, rfl, .inr ⟨next, rfl, (Option.some.inj h).symm⟩⟩
      | succ number =>
          rw [List.getLast?_cons_cons]
          exact ih h

/-- A line with two words or more has room for the closing separator, or else the first word of the
next line would take less room behind it. -/
def Within (width : Nat) (s : Separators) (line next : List Piece) : Prop :=
  2 ≤ line.length → (lineText line ++ s.closing).length ≤ width ∨
    ∃ piece ∈ next.head?, (s.between ++ piece.word).length < s.closing.length

/-- What holds of a line above another one depends on the first word of that one only. -/
theorem within_congr {width : Nat} {s : Separators} {above : List (List Piece)}
    {line line' : List Piece} (h : line.head? = line'.head?)
    (hc : (above ++ [line]).IsChain (Within width s)) :
    (above ++ [line']).IsChain (Within width s) := by
  obtain ⟨habove, -, hlast⟩ := List.isChain_append.mp hc
  refine habove.append (List.isChain_singleton _) ?_
  intro last hmem next hnext
  obtain rfl : line' = next := by simpa using hnext
  have hwithin := hlast last hmem line (by simp)
  rwa [Within, h] at hwithin

namespace Filler

/-- The lines that placing a word completes. -/
def completed (f : Filler) (word : Text) (s : Separators) : List (List Piece) :=
  match _h : f.current with
  | [] => []
  | last :: earlier =>
    if f.currentWidth + s.between.length + word.length ≤ f.width then []
    else if f.currentWidth + s.closing.length ≤ f.width ∨ earlier = [] then [f.current.reverse]
    else earlier.reverse :: ((f.back last earlier).wrap last.word s).completed word s
termination_by f.current.length
decreasing_by
  rename_i many
  have : earlier ≠ [] := fun none => many (.inr none)
  have := List.length_pos_iff.mpr this
  simp [wrap, push, close, back, _h]
  omega

/-- The lines from the line being filled on, when words are placed one after the other. -/
def layout (f : Filler) (s : Separators) : List Text → List (List Piece)
  | [] => [f.current.reverse]
  | word :: words => f.completed word s ++ (f.place word s).layout s words

variable {s : Separators} {done : List (List Piece)} {placed : List Text} {f : Filler} {word : Text}

theorem completed_of_cons {last : Piece} {earlier : List Piece} (hc : f.current = last :: earlier) :
    f.completed word s =
      if f.currentWidth + s.between.length + word.length ≤ f.width then []
      else if f.currentWidth + s.closing.length ≤ f.width ∨ earlier = [] then [f.current.reverse]
      else earlier.reverse :: ((f.back last earlier).wrap last.word s).completed word s := by
  rw [completed]
  split
  · rename_i hnil
    simp [hc] at hnil
  · rename_i other others hcons
    obtain ⟨rfl, rfl⟩ := List.cons.inj (hc.symm.trans hcons)
    rfl

theorem width_place (f : Filler) (word : Text) (s : Separators) :
    (f.place word s).width = f.width := by
  fun_induction Filler.place f word s with
  | case1 f hc => rfl
  | case2 f last earlier hc hfit => rfl
  | case3 f last earlier hc hfit hroom => rfl
  | case4 f last earlier hc hfit hroom ih => exact ih

/-! ## Placing a word -/

/-- The words have been placed and the lines completed. The line being filled is within the width if
it has two words, and all its words but the first stand behind the separator between words. -/
structure Laid (s : Separators) (done : List (List Piece)) (placed : List Text) (f : Filler) :
    Prop where
  lines : f.lines = done.map fun line => lineText line ++ s.closing
  words : (done ++ [f.current.reverse]).flatten.map Piece.word = placed
  filled : [] ∉ done
  filling : f.current ≠ []
  between : ∀ piece ∈ f.current.dropLast, piece.separator = s.between
  measured : f.Measured
  fits : 2 ≤ f.current.length → f.text.length ≤ f.width
  within : (done ++ [f.current.reverse]).IsChain (Within f.width s)

theorem laid_first (width : Nat) (s : Separators) (separator word : Text) :
    Laid s [] [word] ((empty width).push separator word) where
  lines := rfl
  words := rfl
  filled := by simp
  filling := by simp [Filler.push]
  between := by simp [Filler.push, empty]
  measured := Measured.push (f := empty width) rfl _ _
  fits := by simp [Filler.push, empty]
  within := List.isChain_singleton _

theorem Laid.push (h : Laid s done placed f)
    (hfit : (f.text ++ s.between ++ word).length ≤ f.width) :
    Laid s done (placed ++ [word]) (f.push s.between word) where
  lines := h.lines
  words := by
    rw [← h.words]
    simp [Filler.push]
  filled := h.filled
  filling := by simp [Filler.push]
  between := by
    intro piece hmem
    rw [Filler.push, List.dropLast_cons_of_ne_nil h.filling] at hmem
    rcases List.mem_cons.mp hmem with rfl | hmem
    · rfl
    · exact h.between piece hmem
  measured := h.measured.push _ _
  fits := by
    intro _
    simpa [Filler.text, Filler.push, Piece.text] using hfit
  within := by
    refine within_congr ?_ h.within
    obtain ⟨last, earlier, hc⟩ := List.exists_cons_of_ne_nil h.filling
    simp [Filler.push, hc]

/-- The line being filled is completed and the word opens the next one. -/
theorem Laid.wrap (h : Laid s done placed f)
    (hw : Within f.width s f.current.reverse [⟨[], word⟩]) :
    Laid s (done ++ [f.current.reverse]) (placed ++ [word]) (f.wrap word s) where
  lines := by simp [Filler.wrap, Filler.push, close, h.lines, lineText]
  words := by
    rw [← h.words]
    simp [Filler.wrap, Filler.push, close]
  filled := by simp [h.filled, h.filling]
  filling := by simp [Filler.wrap, Filler.push]
  between := by simp [Filler.wrap, Filler.push, close]
  measured := (f.measured_close s.closing).push _ _
  fits := by simp [Filler.wrap, Filler.push, close]
  within := by
    rw [List.append_assoc]
    exact List.isChain_append_cons_cons.mpr ⟨h.within, hw, List.isChain_singleton _⟩

/-- A word that is taken off was within the width behind the words before it. -/
theorem Laid.back {last : Piece} {earlier : List Piece} (h : Laid s done placed f)
    (hc : f.current = last :: earlier) (hne : earlier ≠ []) :
    ∃ front, placed = front ++ [last.word] ∧ Laid s done front (f.back last earlier) ∧
      Within f.width s earlier.reverse [⟨[], last.word⟩] := by
  have htext : f.text = lineText earlier.reverse ++ last.text := by
    simp [Filler.text, lineText, hc]
  have hfits : f.text.length ≤ f.width := by
    have hpos := List.length_pos_iff.mpr hne
    exact h.fits (by simp only [hc, List.length_cons]; omega)
  have hseparator : last.separator = s.between :=
    h.between last (by simp [hc, List.dropLast_cons_of_ne_nil hne])
  refine ⟨_, ?_, ⟨h.lines, rfl, h.filled, hne, ?_, h.measured.back hc, ?_, ?_⟩, ?_⟩
  · rw [← h.words]
    simp [hc, Filler.back]
  · intro piece hmem
    refine h.between piece ?_
    rw [hc, List.dropLast_cons_of_ne_nil hne]
    exact List.mem_cons_of_mem last hmem
  · intro _
    rw [htext, List.length_append] at hfits
    exact Nat.le_of_add_right_le hfits
  · refine within_congr ?_ h.within
    obtain ⟨first, more, he⟩ := List.exists_cons_of_ne_nil hne
    simp [Filler.back, hc, he]
  · intro _
    rw [htext, Piece.text, hseparator] at hfits
    by_cases hroom : (lineText earlier.reverse ++ s.closing).length ≤ f.width
    · exact .inl hroom
    · refine .inr ⟨_, rfl, ?_⟩
      simp only [List.length_append] at hfits hroom ⊢
      omega

theorem Laid.place (h : Laid s done placed f) (word : Text) :
    Laid s (done ++ f.completed word s) (placed ++ [word]) (f.place word s) := by
  fun_induction Filler.place f word s generalizing done placed with
  | case1 f hc => exact (h.filling hc).elim
  | case2 f last earlier hc hfit =>
      rw [completed_of_cons hc, if_pos hfit, List.append_nil]
      rw [h.measured.currentWidth_eq] at hfit
      exact h.push (by simpa [Nat.add_assoc] using hfit)
  | case3 f last earlier hc hfit hroom =>
      rw [completed_of_cons hc, if_neg hfit, if_pos hroom]
      refine h.wrap fun htwo => .inl ?_
      rcases hroom with hroom | rfl
      · rw [h.measured.currentWidth_eq] at hroom
        simpa [Filler.text, lineText] using hroom
      · simp [hc] at htwo
  | case4 f last earlier hc hfit hroom ih =>
      rw [completed_of_cons hc, if_neg hfit, if_neg hroom, List.append_cons]
      obtain ⟨front, rfl, hback, hwithin⟩ := h.back hc fun hnil => hroom (.inr hnil)
      exact ih (hback.wrap hwithin)

/-! ## All words -/

/-- What holds of the lines of a filler at the end. -/
structure Filled (width : Nat) (s : Separators) (words : List Text) (lines : List (List Piece)) :
    Prop where
  words : lines.flatten.map Piece.word = words
  filled : [] ∉ lines
  within : lines.IsChain (Within width s)
  last : ∀ line ∈ lines.getLast?, 2 ≤ line.length → (lineText line).length ≤ width

theorem Laid.finish (h : Laid s done placed f) :
    f.finish = closedTexts s.closing (done ++ [f.current.reverse]) ∧
      Filled f.width s placed (done ++ [f.current.reverse]) := by
  refine ⟨?_, h.words, ?_, h.within, ?_⟩
  · obtain ⟨last, earlier, hc⟩ := List.exists_cons_of_ne_nil h.filling
    rw [closedTexts_concat, ← h.lines]
    simp [Filler.finish, newline, close, hc, lineText]
  · simp [h.filled, h.filling]
  · intro line hline htwo
    obtain rfl : f.current.reverse = line := by simpa using hline
    exact h.fits (by simpa using htwo)

theorem Laid.finish_words (h : Laid s done placed f) (words : List Text) :
    (words.foldl (fun f word => f.place word s) f).finish =
        closedTexts s.closing (done ++ f.layout s words) ∧
      Filled f.width s (placed ++ words) (done ++ f.layout s words) := by
  induction words generalizing done placed f with
  | nil => simpa [layout] using h.finish
  | cons word words ih =>
      have hrest := ih (h.place word)
      rw [width_place] at hrest
      simpa [layout] using hrest

end Filler

/-- The lines that are filled with the words. -/
def layout (words : List Text) (width : Nat) (s first : Separators) : List (List Piece) :=
  match words with
  | [] => []
  | word :: words => ((Filler.empty width).place word first).layout s words

theorem filled_layout (words : List Text) (width : Nat) (s first : Separators) :
    fill words width s first = closedTexts s.closing (layout words width s first) ∧
      Filler.Filled width s words (layout words width s first) := by
  cases words with
  | nil => exact ⟨rfl, rfl, by simp [layout], .nil, by simp [layout]⟩
  | cons word words =>
      have hplace : (Filler.empty width).place word first =
          (Filler.empty width).push first.first word := by
        rw [Filler.place]
        rfl
      have hlaid := Filler.laid_first width s first.first word
      rw [← hplace] at hlaid
      have hfinish := hlaid.finish_words words
      rw [Filler.width_place] at hfinish
      exact hfinish

/-- A line with two words or more is within the width, or it has another line below it whose first
word would take less room behind it than the closing separator does. -/
theorem Filler.Filled.within_or {width : Nat} {s : Separators} {words : List Text}
    {lines : List (List Piece)} (h : Filled width s words lines) {number : Nat} {text : Text}
    (ht : (closedTexts s.closing lines)[number]? = some text) :
    ∃ line, lines[number]? = some line ∧ (2 ≤ line.length → text.length ≤ width ∨
      ∃ piece more, lines[number + 1]? = some (piece :: more) ∧
        (s.between ++ piece.word).length < s.closing.length) := by
  obtain ⟨line, hline, hcase⟩ := line_of_text ht
  refine ⟨line, hline, fun htwo => ?_⟩
  rcases hcase with ⟨hlast, rfl⟩ | ⟨next, hnext, rfl⟩
  · exact .inl (h.last line hlast htwo)
  · obtain ⟨hlt, rfl⟩ := List.getElem?_eq_some_iff.mp hnext
    obtain ⟨_, rfl⟩ := List.getElem?_eq_some_iff.mp hline
    refine (h.within.getElem number hlt htwo).imp_right ?_
    rintro ⟨piece, hpiece, hnarrow⟩
    obtain ⟨more, hmore⟩ := List.head?_eq_some_iff.mp hpiece
    exact ⟨piece, more, by rw [hnext, hmore], hnarrow⟩

/-- Every line with two words or more is within the width, the closing separator included, but for a
line that is closed by a separator wider than what the first word of the next line would take
behind it. If no word takes that little, only lines with a single word are wider. -/
theorem fill_within (words : List Text) (width : Nat) (s first : Separators) :
    let lines := layout words width s first
    (fill words width s first = closedTexts s.closing lines ∧
      lines.flatten.map Piece.word = words ∧ [] ∉ lines) ∧
    ∀ number text, (fill words width s first)[number]? = some text →
      ∃ line, lines[number]? = some line ∧
        (2 ≤ line.length → text.length ≤ width ∨
          ∃ piece more, lines[number + 1]? = some (piece :: more) ∧
            (s.between ++ piece.word).length < s.closing.length) ∧
        ((∀ word ∈ words, s.closing.length ≤ (s.between ++ word).length) →
          width < text.length → ∃ piece, line = [piece]) := by
  intro lines
  obtain ⟨hfill, hfilled⟩ := filled_layout words width s first
  refine ⟨⟨hfill, hfilled.words, hfilled.filled⟩, ?_⟩
  intro number text htext
  rw [hfill] at htext
  obtain ⟨line, hline, hwithin⟩ := hfilled.within_or htext
  refine ⟨line, hline, hwithin, ?_⟩
  intro hwide hover
  match line with
  | [] => exact (hfilled.filled (List.mem_of_getElem? hline)).elim
  | [piece] => exact ⟨piece, rfl⟩
  | first :: second :: more =>
      rcases hwithin (by simp) with hle | ⟨piece, rest, hnext, hnarrow⟩
      · exact (Nat.not_lt.mpr hle hover).elim
      · have hword : piece.word ∈ words := by
          rw [← hfilled.words]
          exact List.mem_map_of_mem (List.mem_flatten.mpr ⟨_, List.mem_of_getElem? hnext, by simp⟩)
        exact (Nat.not_lt.mpr (hwide _ hword) hnarrow).elim

/-- The third word is taken back for want of room for a wide closing separator, which does not fit
behind the first two either. A narrow one makes only lines with a single word too wide. -/
theorem fill_within_taken :
    let wide : Separators := ⟨" ".toList, ";;;;".toList, []⟩
    let narrow : Separators := ⟨" ".toList, ";".toList, []⟩
    let words : List Text := [['a'], ['b'], ['c'], ['d']]
    fill words 5 wide wide = ["a b;;;;".toList, "c d".toList] ∧
      (∃ piece more, (layout words 5 wide wide)[1]? = some (piece :: more) ∧
        (wide.between ++ piece.word).length < wide.closing.length) ∧
      (∀ word ∈ words, narrow.closing.length ≤ (narrow.between ++ word).length) ∧
      (fill words 1 narrow narrow)[0]? = some "a;".toList ∧
      ∃ piece, (layout words 1 narrow narrow)[0]? = some [piece] := by
  intro wide narrow words
  have hfill : fill words 5 wide wide = ["a b;;;;".toList, "c d".toList] := by
    simp only [words, wide]
    cbv
  have htwo : (layout words 5 wide wide)[0]? = some [⟨[], ['a']⟩, ⟨[' '], ['b']⟩] := by
    simp only [words, wide]
    cbv
  have hnarrow : ∀ word ∈ words, narrow.closing.length ≤ (narrow.between ++ word).length := by
    decide
  have hfirst : (fill words 1 narrow narrow)[0]? = some "a;".toList := by
    simp only [words, narrow]
    cbv
  obtain ⟨line, hline, hwithin, -⟩ :=
    (fill_within words 5 wide wide).2 0 "a b;;;;".toList (by simp [hfill])
  obtain rfl := Option.some.inj (htwo.symm.trans hline)
  obtain ⟨line, hline, -, hsingle⟩ := (fill_within words 1 narrow narrow).2 0 _ hfirst
  obtain ⟨piece, rfl⟩ := hsingle hnarrow (by simp)
  exact ⟨hfill, (hwithin (by simp)).resolve_left (by simp), hnarrow, hfirst, piece, hline⟩

end Stencil.Wrap
