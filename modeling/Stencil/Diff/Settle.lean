import Stencil.Diff.Script

/-! Moving the additions of a script. An addition that ends as the kept items before it do may as
well stand before these; every addition is moved up as far as it goes, joined with those it meets,
and then moved down as far as it goes. -/

namespace Stencil.Diff

variable {α : Type}

/-- Drops the drops of a run together behind its additions. -/
def dropsLast : List α → Script α → Script α
  | [], [] => []
  | dropped, [] => [.drop dropped]
  | dropped, .drop items :: rest => dropsLast (dropped ++ items) rest
  | dropped, .add items :: rest => .add items :: dropsLast dropped rest
  | [], .keep items :: rest => .keep items :: dropsLast [] rest
  | dropped, .keep items :: rest => .drop dropped :: .keep items :: dropsLast [] rest

/-- Puts kept items in front of a script. -/
def keepBefore (items : List α) : Script α → Script α
  | .keep more :: rest => .keep (items ++ more) :: rest
  | rest => if items.isEmpty then rest else .keep items :: rest

/-- Puts kept items, the last one first, at the end of a script in reverse order. -/
def keepAfter (items : List α) : Script α → Script α
  | .keep more :: rest => .keep (more ++ items.reverse) :: rest
  | rest => if items.isEmpty then rest else .keep items.reverse :: rest

/-- Moves an addition past kept items while its next item equals the next kept one, which then
takes the place of that item. Gives the kept items left, the addition, and those it has passed,
the last one first. -/
def slide [DecidableEq α] : List α → List α → List α → List α × List α × List α
  | k :: kept, a :: added, passed =>
    if k = a then slide kept (added ++ [a]) (k :: passed) else (k :: kept, a :: added, passed)
  | kept, added, passed => (kept, added, passed)

/-- An addition between the edits before it, the last one first, and those after it. -/
structure Placed (α : Type) where
  before : Script α
  added : List α
  after : Script α

/-- The number of additions. -/
def additions (s : Script α) : Nat := s.countP fun e => e matches .add _

@[simp] theorem additions_keep (items : List α) (s : Script α) :
    additions (.keep items :: s) = additions s := by simp [additions]

@[simp] theorem additions_drop (items : List α) (s : Script α) :
    additions (.drop items :: s) = additions s := by simp [additions]

@[simp] theorem additions_add (items : List α) (s : Script α) :
    additions (.add items :: s) = additions s + 1 := by simp [additions]

theorem additions_keepBefore (items : List α) (s : Script α) :
    additions (keepBefore items s) = additions s := by
  unfold keepBefore
  split
  · simp
  · split <;> simp

variable [DecidableEq α]

/-- Moves an addition up. -/
def raise : Script α → List α → Script α → Placed α
  | [], added, after => ⟨[], added, after⟩
  | .drop items :: before, added, after => raise before added (.drop items :: after)
  | .add items :: before, added, after => raise before (items ++ added) after
  | .keep items :: before, added, after =>
    let (kept, added, passed) := slide items.reverse added.reverse []
    let after := keepBefore passed after
    if kept.isEmpty then raise before added.reverse after
    else ⟨.keep kept.reverse :: before, added.reverse, after⟩

/-- Moves an addition down. -/
def lower (before : Script α) (added : List α) : Script α → Placed α
  | [] => ⟨before, added, []⟩
  | .drop items :: after => lower (.drop items :: before) added after
  | .add items :: after => lower before (added ++ items) after
  | .keep items :: after =>
    let (kept, added, passed) := slide items added []
    let before := keepAfter passed before
    if kept.isEmpty then lower before added after
    else ⟨before, added, .keep kept :: after⟩

theorem additions_raise (before : Script α) (added : List α) (after : Script α) :
    additions (raise before added after).after = additions after := by
  fun_induction raise before added after with
  | case1 => rfl
  | case2 items before added after ih => simpa using ih
  | case3 items before added after ih => exact ih
  | case4 items before added after kept added' passed hs after' h ih =>
    exact ih.trans (additions_keepBefore ..)
  | case5 items before added after kept added' passed hs after' h =>
    exact additions_keepBefore ..

theorem additions_lower (before : Script α) (added : List α) (after : Script α) :
    additions (lower before added after).after ≤ additions after := by
  fun_induction lower before added after with
  | case1 => simp
  | case2 before added items after ih => simpa using ih
  | case3 before added items after ih => simpa using Nat.le_succ_of_le ih
  | case4 before added items after kept added' passed hs before' h ih => simpa using ih
  | case5 before added items after kept added' passed hs before' h => simp

/-- Moves the additions of a script one after the other. -/
def settleFrom (before : Script α) : Script α → Script α
  | [] => before.reverse
  | .add items :: after =>
    let raised := raise before items after
    let placed := lower raised.before raised.added raised.after
    settleFrom (.add placed.added :: placed.before) placed.after
  | .keep items :: after => settleFrom (.keep items :: before) after
  | .drop items :: after => settleFrom (.drop items :: before) after
termination_by after => (additions after, after.length)
decreasing_by
  · apply Prod.Lex.left
    have hr := additions_raise before items after
    have hl := additions_lower raised.before raised.added raised.after
    rw [additions_add]
    exact Nat.lt_succ_of_le (hr ▸ hl)
  · simp [Prod.lex_def]
  · simp [Prod.lex_def]

def settle (s : Script α) : Script α := settleFrom [] (dropsLast [] s)

end Stencil.Diff
