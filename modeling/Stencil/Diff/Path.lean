import Stencil.Text

/-! The middle of a shortest path that edits one list into another. Paths run through a grid: one
step to the right drops an item of the old list, one step down adds an item of the new list, and
diagonal steps, which cost nothing, keep equal items. Diagonal `k` holds the points with
`x - y = k`. -/

namespace Stencil.Diff

variable {α : Type} [DecidableEq α]

/-- The length of the longest common start. -/
def shared : List α → List α → Nat
  | a :: as, b :: bs => if a = b then shared as bs + 1 else 0
  | _, _ => 0

/-- How far a path gets along its last diagonal: `x` is where it enters it, `reached` where the
equal items end. -/
structure Reach where
  diagonal : Int
  x : Nat
  reached : Nat

/-- The furthest points of paths with the same number of steps that cost, on the diagonals of that
number, two lower, and so on. -/
abbrev Frontier := List Nat

namespace Frontier

/-- Where a path enters a diagonal: from below it by dropping an item, unless the path above is
further. -/
def entry : Option Nat → Option Nat → Nat
  | some below, some above => if below < above then above else below + 1
  | some below, none => below + 1
  | none, some above => above
  | none, none => 0

/-- The entries with one more step that costs; nothing before the first. -/
def entries (f : Frontier) : List Nat :=
  List.zipWith entry (f.map some ++ [none]) (none :: f.map some)

/-- The paths with `cost` steps that cost, given the frontier before. -/
def advance (old new : List α) (cost : Nat) (f : Frontier) : List Reach :=
  f.entries.zipIdx.map fun (x, i) =>
    let k : Int := cost - 2 * i
    let y : Int := x - k
    ⟨k, x, if y < 0 then x else x + shared (old.drop x) (new.drop y.toNat)⟩

/-- The point on a diagonal, if it is one of the frontier's. -/
def at? (cost : Nat) (f : Frontier) (k : Int) : Option Nat :=
  if k.natAbs ≤ cost then f[((cost - k) / 2).toNat]? else none

end Frontier

/-- The first of some paths that meets a frontier from the other end. -/
def meeting? (old new : List α) (cost : Nat) (other : Frontier) (paths : List Reach) :
    Option Reach :=
  paths.find? fun p =>
    (other.at? cost (old.length - new.length - p.diagonal)).any (old.length ≤ p.reached + ·)

/-- Searches from both ends, one step that costs at a time. Paths with an odd number of such steps
are met from the start, others from the end. -/
def search (old new : List α) : Nat → Nat → Frontier → Frontier → Option (Nat × Nat)
  | 0, _, _, _ => none
  | fuel + 1, cost, ahead, behind =>
    let odd := (old.length + new.length) % 2 = 1
    let fore := ahead.advance old new cost
    let met := if odd ∧ 0 < cost then meeting? old new (cost - 1) behind fore else none
    match met with
    | some p => some (p.x, (p.x - p.diagonal).toNat)
    | none =>
      let ahead := fore.map Reach.reached
      let back := behind.advance old.reverse new.reverse cost
      let met := if odd then none else meeting? old new cost ahead back
      match met with
      | some p => some (old.length - p.reached, new.length - (p.reached - p.diagonal).toNat)
      | none => search old new fuel (cost + 1) ahead (back.map Reach.reached)

/-- A point in the middle of a shortest path. Each end needs at most half of the steps. -/
def middle? (old new : List α) : Option (Nat × Nat) :=
  search old new ((old.length + new.length + 1) / 2 + 1) 0 [] []

end Stencil.Diff
