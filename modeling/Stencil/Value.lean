import Stencil.Number.Decimal

/-! Values that directives expand to or are decided by, and the place of a directive in its line. -/

namespace Stencil

inductive Value where
  | bool (b : Bool)
  | int (i : Int64)
  | float (x : Binary64)
  | text (t : Text)
  | lines (ls : List Text)
  deriving DecidableEq, Inhabited

namespace Value

/-- False, the zeros, the empty text and the empty list of lines do not hold. -/
def holds : Value → Bool
  | bool b => b
  | int i => i != 0
  | float x => !x.isZero
  | text t => !t.isEmpty
  | lines ls => !ls.isEmpty

/-- Values that add nothing to the output. -/
def isEmpty : Value → Bool
  | text t => t.isEmpty
  | lines ls => ls.isEmpty
  | _ => false

/-- Equality in which floating point numbers may differ in their last places. -/
def near : Value → Value → Bool
  | bool a, bool b => a == b
  | int a, int b => a == b
  | float a, float b => a.near b
  | text a, text b => a == b
  | lines a, lines b => a == b
  | _, _ => false

/-- Numbers in the output never use an exponent and have a point only before a fraction. -/
def floatLayout : FloatLayout := ⟨.up, false, fun _ => true⟩

def floatText (x : Binary64) : Text :=
  if x.isNaN then "NaN"
  else if x.isInfinite then if x.negative then "-inf" else "inf"
  else floatLayout.write x

/-- The text a value expands to. -/
def display : Value → Text
  | bool b => if b then "true" else "false"
  | int i => Text.ofInt i.toInt
  | float x => floatText x
  | text t => t
  | lines ls => Text.joined ['\n'] ls

/-- A count as a value; counts beyond the range of the integers give its end. -/
def ofCount (n : Nat) : Value := int (Int64.ofNat (min n (Nat.pow 2 63 - 1)))

end Value

/-- An absent value does not hold. -/
def holds? (v : Option Value) : Bool := v.any Value.holds

/-- Where a directive stands in the line being built: the leading spaces and tabs, and the number
of characters before it. -/
structure Context where
  indentation : Text
  column : Nat
  deriving DecidableEq, Inhabited

namespace Context

/-- Moves a context to the right of a base. -/
def offsetBy (c base : Context) : Context :=
  ⟨base.indentation ++ c.indentation, base.column + c.column⟩

end Context

end Stencil
