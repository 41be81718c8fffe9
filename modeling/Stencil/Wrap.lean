import Stencil.Text

/-! Filling lines of bounded width with words. A word is never split, so a line with a single word
may be wider than the bound. -/

namespace Stencil.Wrap

structure Separators where
  /-- Between two words of one line. -/
  between : Text
  /-- At the end of a line whose next word wraps. -/
  closing : Text
  /-- Before a word that opens a line which is not the continuation of another. -/
  first : Text
  deriving DecidableEq, Inhabited

/-- A word with the separator written before it. -/
structure Piece where
  separator : Text
  word : Text
  deriving DecidableEq

namespace Piece

def text (p : Piece) : Text := p.separator ++ p.word

def width (p : Piece) : Nat := p.separator.length + p.word.length

end Piece

structure Filler where
  width : Nat
  lines : List Text
  /-- The pieces of the line being filled, the last one first. -/
  current : List Piece
  /-- The width of the line being filled. -/
  currentWidth : Nat
  deriving DecidableEq

namespace Filler

def defaultWidth : Nat := 80

def empty (width : Nat) : Filler := ⟨width, [], [], 0⟩

def push (f : Filler) (separator word : Text) : Filler :=
  let piece : Piece := ⟨separator, word⟩
  { f with current := piece :: f.current, currentWidth := f.currentWidth + piece.width }

/-- Completes the line being filled and ends it with `closing`. -/
def close (f : Filler) (closing : Text) : Filler :=
  let line := f.current.reverse.flatMap Piece.text ++ closing
  { f with lines := f.lines ++ [line], current := [], currentWidth := 0 }

/-- Opens a line with a word that wraps. -/
def wrap (f : Filler) (word : Text) (s : Separators) : Filler := (f.close s.closing).push [] word

/-- Takes the last piece off the line being filled. -/
def back (f : Filler) (last : Piece) (earlier : List Piece) : Filler :=
  { f with current := earlier, currentWidth := f.currentWidth - last.width }

/-- Places a word: on the line if it fits, else on the next one. When the line has no room left for
the closing separator either, the word before moves to the next line too. -/
def place (f : Filler) (word : Text) (s : Separators) : Filler :=
  match _h : f.current with
  | [] => f.push s.first word
  | last :: earlier =>
    if f.currentWidth + s.between.length + word.length ≤ f.width then f.push s.between word
    else if f.currentWidth + s.closing.length ≤ f.width ∨ earlier = [] then f.wrap word s
    else ((f.back last earlier).wrap last.word s).place word s
termination_by f.current.length
decreasing_by
  rename_i many
  have : earlier ≠ [] := fun none => many (.inr none)
  have := List.length_pos_iff.mpr this
  simp [wrap, push, close, back, _h]
  omega

/-- Places words one after the other, the first one with separators of its own. -/
def placeAll (f : Filler) (words : List Text) (s first : Separators) : Filler :=
  match words with
  | [] => f
  | word :: words => words.foldl (fun f word => f.place word s) (f.place word first)

/-- Completes the line being filled, even an empty one. -/
def newline (f : Filler) : Filler := f.close []

/-- All lines; a line being filled is completed if it has words. -/
def finish (f : Filler) : List Text :=
  if f.current.isEmpty then f.lines else f.newline.lines

end Filler

/-- Fills lines with the words. -/
def fill (words : List Text) (width : Nat) (s first : Separators) : List Text :=
  ((Filler.empty width).placeAll words s first).finish

end Stencil.Wrap
