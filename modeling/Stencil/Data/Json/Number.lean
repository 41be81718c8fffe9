import Stencil.Data.Json

/-! Reading a JSON number. Whole numbers of 64 bits are exact. For other numbers as many leading
digits as 64 bits hold are read, and the result is scaled by one rounded power of ten, so its last
place may differ from the nearest float. -/

namespace Stencil.Json.Number

/-- A significand of 64 bits and the power of ten it is still to be multiplied by. -/
structure Scaled where
  significand : Nat
  exponent : Int

/-- One more digit, if the significand still fits. -/
def Scaled.push? (x : Scaled) (c : Char) : Option Nat :=
  let next := x.significand * 10 + (c.toNat - '0'.toNat)
  if next < Nat.pow 2 64 then some next else none

/-- Digits before the point. The digits that no longer fit only count. -/
def wholeDigits : Scaled → Bool → Text → Scaled × Bool × Text
  | x, full, c :: rest =>
    if c.isDigit then
      match full, x.push? c with
      | false, some next => wholeDigits { x with significand := next } false rest
      | _, _ => wholeDigits { x with exponent := x.exponent + 1 } true rest
    else (x, full, c :: rest)
  | x, full, [] => (x, full, [])

/-- Digits after the point. The digits that no longer fit are dropped. -/
def fractionDigits : Scaled → Bool → Text → Scaled × Text
  | x, full, c :: rest =>
    if c.isDigit then
      match full, x.push? c with
      | false, some next => fractionDigits ⟨next, x.exponent - 1⟩ false rest
      | _, _ => fractionDigits x true rest
    else (x, c :: rest)
  | x, _, [] => (x, [])

def powerOfTen (n : Nat) : Binary64 := .ofNat (Nat.pow 10 n)

/-- Multiplies by a power of ten in steps of at most 308; there is no result beyond the range. -/
def scale (f : Binary64) (exponent : Int) : Nat → Option Binary64
  | 0 => some f
  | steps + 1 =>
    if exponent.natAbs ≤ 308 then
      if 0 ≤ exponent then
        let product := f.mul (powerOfTen exponent.natAbs)
        if product.isInfinite then none else some product
      else some (f.div (powerOfTen exponent.natAbs))
    else if f.isZero then some f
    else if 0 ≤ exponent then none
    else scale (f.div (powerOfTen 308)) (exponent + 308) steps

/-- The float of a scaled significand. Four steps take every significand to zero. -/
def Scaled.toFloat (x : Scaled) (negative : Bool) : Option JsonNumber :=
  (scale (.ofNat x.significand) x.exponent 5).map fun f => .float (if negative then f.neg else f)

/-- The part from the letter of the exponent on. An exponent beyond 32 bits gives zero or no
number. -/
def exponentPart (negative : Bool) (x : Scaled) (rest : Text) : Option (JsonNumber × Text) :=
  let (down, rest) := match rest with
    | '-' :: rest => (true, rest)
    | '+' :: rest => (false, rest)
    | rest => (false, rest)
  let digits := rest.takeWhile Char.isDigit
  let rest := rest.dropWhile Char.isDigit
  (Text.toNat? 10 digits).bind fun e =>
    if e < Nat.pow 2 31 then
      let exponent := if down then x.exponent - e else x.exponent + e
      ({ x with exponent }.toFloat negative).map (·, rest)
    else if x.significand ≠ 0 && !down then none
    else some (.float (.zero negative), rest)

/-- The number without point and exponent. -/
def whole (negative : Bool) (n : Nat) : JsonNumber :=
  if !negative then .whole n
  else if n = 0 || Nat.pow 2 63 < n then .float (Binary64.ofNat n).neg
  else .whole (-n)

/-- The rest of a number after the digits before its point. -/
def afterWhole (negative : Bool) (x : Scaled) (full : Bool) :
    Text → Option (JsonNumber × Text)
  | '.' :: rest =>
    if !(rest.head?.any Char.isDigit) then none
    else
      match fractionDigits x false rest with
      | (x, 'e' :: rest) => exponentPart negative x rest
      | (x, 'E' :: rest) => exponentPart negative x rest
      | (x, rest) => (x.toFloat negative).map (·, rest)
  | 'e' :: rest => exponentPart negative x rest
  | 'E' :: rest => exponentPart negative x rest
  | rest =>
    if full then (x.toFloat negative).map (·, rest)
    else some (whole negative x.significand, rest)

/-- The number at the start of a text and what follows it. -/
def read (t : Text) : Option (JsonNumber × Text) :=
  let (negative, t) := match t with
    | '-' :: t => (true, t)
    | t => (false, t)
  match t with
  | '0' :: rest =>
    if rest.head?.any Char.isDigit then none else afterWhole negative ⟨0, 0⟩ false rest
  | c :: rest =>
    if c.isDigit then
      let (x, full, rest) := wholeDigits ⟨0, 0⟩ false (c :: rest)
      afterWhole negative x full rest
    else none
  | [] => none

end Stencil.Json.Number
