import Mathlib.Algebra.Ring.Nat
import Stencil.Wrap

/-! The lines of a filler as rows of words. A row keeps its words apart, each with the separators it
was placed with, and knows what ended it; the texts of the lines are read off the rows. -/

namespace Stencil.Wrap

/-- A word with the separators it is placed with. -/
structure Word where
  text : Text
  separators : Separators
  deriving DecidableEq

inductive Ending where
  /-- A line break was asked for, or the words have come to their end. -/
  | broken
  /-- The row was closed to make room for another word. -/
  | wrapped (closer : Word)
  deriving DecidableEq

structure Row where
  words : List Word
  ending : Ending
  deriving DecidableEq

namespace Ending

def text : Ending → Text
  | broken => []
  | wrapped closer => closer.separators.closing

/-- What stands before the first word of the next row. -/
def opening : Ending → Word → Text
  | broken, word => word.separators.first
  | wrapped _, _ => []

end Ending

/-- The words of a row with what stands before each of them. -/
def pieces (before : Ending) : List Word → List Piece
  | [] => []
  | first :: more =>
    ⟨before.opening first, first.text⟩ :: more.map fun word => ⟨word.separators.between, word.text⟩

def Row.text (before : Ending) (row : Row) : Text :=
  (pieces before row.words).flatMap Piece.text ++ row.ending.text

/-- The lines that the rows make up, behind a row with the given ending. -/
def texts : Ending → List Row → List Text
  | _, [] => []
  | before, row :: rows => row.text before :: texts row.ending rows

/-- The ending of the last row. -/
def endingOf : Ending → List Row → Ending
  | before, [] => before
  | _, row :: rows => endingOf row.ending rows

/-! ## Appending -/

theorem texts_append (before : Ending) (rows more : List Row) :
    texts before (rows ++ more) = texts before rows ++ texts (endingOf before rows) more := by
  induction rows generalizing before with
  | nil => rfl
  | cons row rows ih => simp [texts, endingOf, ih]

theorem endingOf_append (before : Ending) (rows : List Row) (row : Row) :
    endingOf before (rows ++ [row]) = row.ending := by
  induction rows generalizing before with
  | nil => rfl
  | cons first rows ih => exact ih first.ending

theorem length_texts (before : Ending) (rows : List Row) :
    (texts before rows).length = rows.length := by
  induction rows generalizing before with
  | nil => rfl
  | cons row rows ih => simp [texts, ih]

/-- What stands before a word depends on whether the row already has words. -/
def separatorOf (before : Ending) (words : List Word) (word : Word) : Text :=
  if words = [] then before.opening word else word.separators.between

theorem pieces_append (before : Ending) (words : List Word) (word : Word) :
    pieces before (words ++ [word]) =
      pieces before words ++ [⟨separatorOf before words word, word.text⟩] := by
  cases words with
  | nil => rfl
  | cons first more => simp [pieces, separatorOf]

theorem pieces_eq_nil {before : Ending} {words : List Word} :
    pieces before words = [] ↔ words = [] := by
  cases words with
  | nil => simp [pieces]
  | cons first more => simp [pieces]

/-! ## The recorded width -/

namespace Filler

/-- The recorded width is the width of what has been placed. -/
def Measured (f : Filler) : Prop := f.currentWidth = (f.current.map Piece.width).sum

variable {f : Filler}

theorem Measured.push (h : f.Measured) (separator word : Text) :
    (f.push separator word).Measured := by
  have hw : f.currentWidth = (f.current.map Piece.width).sum := h
  simp [Measured, Filler.push, hw, Nat.add_comm]

theorem measured_close (f : Filler) (closing : Text) : (f.close closing).Measured := rfl

/-- The width loses exactly what the piece taken off had added. -/
theorem Measured.back (h : f.Measured) {last : Piece} {earlier : List Piece}
    (hc : f.current = last :: earlier) : (f.back last earlier).Measured := by
  have hw : f.currentWidth = (f.current.map Piece.width).sum := h
  rw [hc, List.map_cons, List.sum_cons] at hw
  change f.currentWidth - last.width = _
  rw [hw, Nat.add_sub_cancel_left]
  rfl

end Filler

/-! ## Rows of a filler -/

/-- The filler has completed the rows and is filling a line with the words. -/
structure Shows (rows : List Row) (words : List Word) (f : Filler) : Prop where
  lines : f.lines = texts .broken rows
  current : f.current.reverse = pieces (endingOf .broken rows) words
  measured : f.Measured

variable {rows : List Row} {words : List Word} {f : Filler}

theorem shows_empty (width : Nat) : Shows [] [] (.empty width) := ⟨rfl, rfl, rfl⟩

theorem Shows.current_eq_nil (h : Shows rows words f) : f.current = [] ↔ words = [] := by
  rw [← pieces_eq_nil, ← h.current, List.reverse_eq_nil_iff]

theorem Shows.length (h : Shows rows words f) : f.lines.length = rows.length := by
  rw [h.lines, length_texts]

theorem Shows.push (h : Shows rows words f) (word : Word) :
    Shows rows (words ++ [word])
      (f.push (separatorOf (endingOf .broken rows) words word) word.text) where
  lines := h.lines
  current := by
    rw [pieces_append, ← h.current]
    simp [Filler.push]
  measured := h.measured.push _ _

theorem Shows.close (h : Shows rows words f) (ending : Ending) :
    Shows (rows ++ [⟨words, ending⟩]) [] (f.close ending.text) where
  lines := by
    rw [texts_append, Filler.close, h.lines, h.current]
    rfl
  current := rfl
  measured := f.measured_close _

/-- The last word of a row is the last piece of the line. -/
theorem Shows.current_eq_cons {last : Piece} {earlier : List Piece}
    (h : Shows rows words f) (hc : f.current = last :: earlier) :
    ∃ front word, words = front ++ [word] ∧ word.text = last.word ∧
      earlier.reverse = pieces (endingOf .broken rows) front := by
  rcases List.eq_nil_or_concat words with rfl | ⟨front, word, rfl⟩
  · rw [h.current_eq_nil.mpr rfl] at hc
    simp at hc
  · have hlast := h.current
    rw [List.concat_eq_append, pieces_append, hc, List.reverse_cons] at hlast
    obtain ⟨hfront, hword⟩ := List.append_inj' hlast rfl
    refine ⟨front, word, List.concat_eq_append, ?_, hfront⟩
    rw [(List.cons.inj hword).1]

theorem Shows.back {front : List Word} {last : Piece} {earlier : List Piece}
    (h : Shows rows words f) (hc : f.current = last :: earlier)
    (hf : earlier.reverse = pieces (endingOf .broken rows) front) :
    Shows rows front (f.back last earlier) where
  lines := h.lines
  current := hf
  measured := h.measured.back hc

end Stencil.Wrap
