/-! Floating point numbers of 64 bits. A number is its bit pattern; its value is an exact ratio,
and arithmetic is exact arithmetic rounded once. -/

namespace Stencil

structure Binary64 where
  bits : UInt64
  deriving DecidableEq, Inhabited

namespace Binary64

def ofNatBits (n : Nat) : Binary64 := ⟨n.toUInt64⟩

def negative (x : Binary64) : Bool := Nat.pow 2 63 ≤ x.bits.toNat

/-- The bits without the sign. -/
def magnitude (x : Binary64) : Nat := x.bits.toNat % Nat.pow 2 63

/-- The bits of the infinity of either sign, without the sign. -/
def infinityMagnitude : Nat := 2047 * Nat.pow 2 52

def isNaN (x : Binary64) : Bool := infinityMagnitude < x.magnitude

def isInfinite (x : Binary64) : Bool := x.magnitude == infinityMagnitude

def isFinite (x : Binary64) : Bool := x.magnitude < infinityMagnitude

def isZero (x : Binary64) : Bool := x.magnitude == 0

/-- Puts a sign before a magnitude. -/
def ofMagnitude (negative : Bool) (magnitude : Nat) : Binary64 :=
  ofNatBits ((if negative then Nat.pow 2 63 else 0) + magnitude)

def nan : Binary64 := ofMagnitude false (infinityMagnitude + Nat.pow 2 51)

def infinity (negative : Bool) : Binary64 := ofMagnitude negative infinityMagnitude

def zero (negative : Bool) : Binary64 := ofMagnitude negative 0

/-- The whole number whose product with `2 ^ scale` is the absolute value. -/
def significand (x : Binary64) : Nat :=
  if x.magnitude < Nat.pow 2 52 then x.magnitude else Nat.pow 2 52 + x.magnitude % Nat.pow 2 52

def scale (x : Binary64) : Int := max (x.magnitude / Nat.pow 2 52 : Nat) 1 - 1075

/-- The absolute value of a finite number as numerator and denominator. -/
def ratio (x : Binary64) : Nat × Nat :=
  (x.significand * Nat.pow 2 x.scale.toNat, Nat.pow 2 (-x.scale).toNat)

/-- The quotient rounded to a whole number, a half to the even neighbour. -/
def roundHalfEven (n d : Nat) : Nat :=
  let q := n / d
  let r := n % d
  if d < 2 * r ∨ (2 * r = d ∧ q % 2 = 1) then q + 1 else q

/-- The largest `e` with `2 ^ e ≤ n / d`, for positive `n` and `d`. -/
def binaryExponent (n d : Nat) : Int :=
  let e : Int := (n.log2 : Int) - d.log2
  if n * Nat.pow 2 (-e).toNat < d * Nat.pow 2 e.toNat then e - 1 else e

/-- The number nearest to `n / d`, a half to the even neighbour; too large a quotient gives the
infinity. A significand that rounds up to the next power of two carries into the exponent by the
same sum. -/
def ofRatio (negative : Bool) (n d : Nat) : Binary64 :=
  if n = 0 then zero negative
  else
    let s := max (binaryExponent n d - 52) (-1074)
    let m := roundHalfEven (n * Nat.pow 2 (-s).toNat) (d * Nat.pow 2 s.toNat)
    ofMagnitude negative (min ((s + 1074).toNat * Nat.pow 2 52 + m) infinityMagnitude)

def ofNat (n : Nat) : Binary64 := ofRatio false n 1

def ofInt (i : Int) : Binary64 := ofRatio (i < 0) i.natAbs 1

/-- The product of finite numbers. -/
def mul (x y : Binary64) : Binary64 :=
  let (a, b) := x.ratio
  let (c, d) := y.ratio
  ofRatio (x.negative != y.negative) (a * c) (b * d)

/-- The quotient of finite numbers, the second not zero. -/
def div (x y : Binary64) : Binary64 :=
  let (a, b) := x.ratio
  let (c, d) := y.ratio
  ofRatio (x.negative != y.negative) (a * d) (b * c)

def neg (x : Binary64) : Binary64 := ofMagnitude (!x.negative) x.magnitude

/-- Equality as numbers: the zeros are equal, and a NaN equals nothing. -/
def sameNumber (x y : Binary64) : Bool :=
  !x.isNaN && !y.isNaN && (x.bits == y.bits || (x.isZero && y.isZero))

/-- The position of a bit pattern in the order of the numbers: negative patterns count down. -/
def rank (x : Binary64) : Nat :=
  if x.negative then Nat.pow 2 64 - 1 - x.bits.toNat else Nat.pow 2 63 + x.bits.toNat

/-- Equal as numbers, or at most two patterns apart in the order, whose two ends do not meet. -/
def near (x y : Binary64) : Bool :=
  x.sameNumber y || (x.rank - y.rank) + (y.rank - x.rank) ≤ 2

end Binary64

end Stencil
