import Stencil.Diff.Path

/-! Edit scripts. -/

namespace Stencil.Diff

inductive Edit (α : Type) where
  | keep (items : List α)
  | drop (items : List α)
  | add (items : List α)
  deriving DecidableEq

abbrev Script (α : Type) := List (Edit α)

variable {α : Type} [DecidableEq α]

/-- Splits a list before its last `n` items. -/
def splitEnd (n : Nat) (items : List α) : List α × List α := items.splitAt (items.length - n)

def keeping : List α → Script α
  | [] => []
  | items => [.keep items]

/-- A shortest script that makes `new` from `old`: what both begin and end with is kept, and the
rest is cut at the middle of a shortest path. -/
def script (old new : List α) : Script α :=
  let (start, old') := old.splitAt (shared old new)
  let new' := new.drop start.length
  let (old', finish) := splitEnd (shared old'.reverse new'.reverse) old'
  let new' := (splitEnd finish.length new').1
  let inner :=
    if old' = [] ∧ new' = [] then []
    else if new' = [] then [.drop old']
    else if old' = [] then [.add new']
    else match middle? old' new' with
      | none => [.drop old', .add new']
      | some (x, y) =>
        if _h : (old'.take x).length + (new'.take y).length < old.length + new.length ∧
            (old'.drop x).length + (new'.drop y).length < old.length + new.length then
          script (old'.take x) (new'.take y) ++ script (old'.drop x) (new'.drop y)
        else [.drop old', .add new']
  keeping start ++ inner ++ keeping finish
termination_by old.length + new.length
decreasing_by
  · exact _h.1
  · exact _h.2

end Stencil.Diff
