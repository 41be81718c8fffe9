import Stencil.Text

/-! Paths as they are written, with their names divided by slashes. -/

namespace Stencil

abbrev Path := Text

namespace Path

def isAbsolute (p : Path) : Bool := p.head? == some '/'

/-- An absolute path stands for itself wherever it is met. -/
def join (base p : Path) : Path :=
  if isAbsolute p || base.isEmpty then p
  else if base.getLast? == some '/' then base ++ p
  else base ++ '/' :: p

/-- The slash of an absolute path. -/
def anchor (p : Path) : Text := if isAbsolute p then ['/'] else []

/-- The pieces between the slashes after the anchor, the last one first. -/
def pieces (p : Path) : List Text := ((p.drop p.anchor.length).splitOn '/').reverse

/-- Drops the last pieces that lead nowhere: empty ones, and single dots unless such a dot opens a
relative path. -/
def dropIdle (absolute : Bool) : List Text → List Text
  | [] => []
  | piece :: earlier =>
    if piece = [] ∨ (piece = ['.'] ∧ (absolute ∨ earlier ≠ [])) then dropIdle absolute earlier
    else piece :: earlier

def steps (p : Path) : List Text := dropIdle p.isAbsolute p.pieces

/-- The path without its last step. -/
def parent? (p : Path) : Option Path :=
  match p.steps with
  | [] => none
  | _ :: earlier =>
    some (p.anchor ++ Text.joined ['/'] (dropIdle p.isAbsolute earlier).reverse)

/-- The last step, if it is a name. -/
def name? (p : Path) : Option Text :=
  match p.steps with
  | [] => none
  | last :: _ => if last = ['.'] ∨ last = ['.', '.'] then none else some last

/-- The name's part after its last dot; a dot at the start of a name opens no extension. -/
def extension? (p : Path) : Option Text := do
  let name ← p.name?
  let back := name.reverse
  match back.dropWhile (· ≠ '.') with
  | '.' :: _ :: _ => some (back.takeWhile (· ≠ '.')).reverse
  | _ => none

end Path

end Stencil
