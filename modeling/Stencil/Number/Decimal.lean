import Stencil.Text
import Stencil.Number.Binary64

/-! Decimal numbers `coefficient · 10 ^ exponent`: the fewest digits that read back as a given
binary number, their layout as text, and the binary number nearest to given digits. -/

namespace Stencil

structure Decimal where
  coefficient : Nat
  exponent : Int
  deriving DecidableEq, Inhabited

/-- Where a value exactly between two decimals goes. -/
inductive Tie where
  | up
  | even
  deriving DecidableEq

namespace Decimal

/-- The largest `e` with `10 ^ e ≤ n / d`, for positive `n` and `d`. -/
def decimalExponent (n d : Nat) : Int :=
  let e : Int := ((Text.ofNat n).length : Int) - (Text.ofNat d).length
  if n * Nat.pow 10 (-e).toNat < d * Nat.pow 10 e.toNat then e - 1 else e

/-- The neighbour of `n / d` on the grid of step `10 ^ e` that lies between the bounds `low / d` and
`high / d`, the nearer one when both do. The bounds belong to the interval when `closed`. -/
def onGrid (tie : Tie) (closed : Bool) (low n high d : Nat) (e : Int) : Option Decimal :=
  let up := Nat.pow 10 (-e).toNat
  let step := d * Nat.pow 10 e.toNat
  let q := n * up / step
  let inside (k : Nat) : Bool :=
    if closed then low * up ≤ k * step && k * step ≤ high * up
    else low * up < k * step && k * step < high * up
  let r := n * up % step
  let pick :=
    if r == 0 then q
    else if !inside (q + 1) then q
    else if !inside q then q + 1
    else if 2 * r < step then q
    else if step < 2 * r then q + 1
    else match tie with
      | .up => q + 1
      | .even => if q % 2 = 0 then q else q + 1
  if inside pick then some ⟨pick, e⟩ else none

/-- Tries the grids from coarse to fine and takes the first hit. -/
def firstOnGrid (tie : Tie) (closed : Bool) (low n high d : Nat) (e : Int) : Nat → Decimal
  | 0 => ⟨n / d, 0⟩
  | tries + 1 =>
    match onGrid tie closed low n high d e with
    | some found => found
    | none => firstOnGrid tie closed low n high d (e - 1) tries

/-- The decimal with the fewest digits among those that round to the finite number `x`, and of
those the nearest to it. Seventeen digits are always enough. -/
def shortest (tie : Tie) (x : Binary64) : Decimal :=
  let m := x.significand
  if m = 0 then ⟨0, 0⟩
  else
    let below := if m = Nat.pow 2 52 ∧ x.scale ≠ -1074 then 1 else 2
    let up := Nat.pow 2 (x.scale - 2).toNat
    let d := Nat.pow 2 (2 - x.scale).toNat
    let n := 4 * m * up
    firstOnGrid tie (m % 2 == 0) ((4 * m - below) * up) n ((4 * m + 2) * up) d
      (decimalExponent n d) 18

/-- Drops the final zeros of the coefficient. -/
def digits (x : Decimal) : Text :=
  if x.coefficient = 0 then ['0']
  else ((Text.ofNat x.coefficient).reverse.dropWhile (· == '0')).reverse

/-- The exponent of the first digit. -/
def leading (x : Decimal) : Int := x.exponent + (Text.ofNat x.coefficient).length - 1

/-- Digits around a point at the given place: zeros fill a gap on either side. -/
def pointed (digits : Text) (place : Int) : Text × Text :=
  if place ≤ 0 then (['0'], List.replicate (-place).toNat '0' ++ digits)
  else if digits.length ≤ place.toNat then
    (digits ++ List.replicate (place.toNat - digits.length) '0', [])
  else (digits.take place.toNat, digits.drop place.toNat)

/-- The finite number nearest to the decimal, or the infinity. -/
def toBinary64 (negative : Bool) (x : Decimal) : Binary64 :=
  let top := x.leading
  if x.coefficient = 0 ∨ top < -400 then .zero negative
  else if 400 < top then .infinity negative
  else
    .ofRatio negative (x.coefficient * Nat.pow 10 x.exponent.toNat)
      (Nat.pow 10 (-x.exponent).toNat)

end Decimal

/-- How a finite number is laid out: which leading exponents are written positionally, whether a
whole number keeps a final `.0`, and where an exact tie between shortest digits goes. -/
structure FloatLayout where
  tie : Tie
  wholePoint : Bool
  positional : Int → Bool

namespace FloatLayout

/-- The magnitude of `x` under the layout; the exponent of scientific notation always has a sign. -/
def magnitude (layout : FloatLayout) (x : Binary64) : Text :=
  let decimal := Decimal.shortest layout.tie x
  let digits := decimal.digits
  let top := decimal.leading
  if layout.positional top then
    match Decimal.pointed digits (top + 1) with
    | (whole, []) => if layout.wholePoint then whole ++ ['.', '0'] else whole
    | (whole, fraction) => whole ++ '.' :: fraction
  else
    let mantissa := match digits with
      | first :: second :: rest => first :: '.' :: second :: rest
      | short => short
    let sign := if top < 0 then '-' else '+'
    mantissa ++ 'e' :: sign :: Text.ofNat top.natAbs

def write (layout : FloatLayout) (x : Binary64) : Text :=
  if x.negative then '-' :: layout.magnitude x else layout.magnitude x

end FloatLayout

end Stencil
