import Stencil.Data.Json

/-! What a plain YAML scalar stands for: null, a boolean, a number or just its text. -/

namespace Stencil.Yaml.Plain

def isNull (t : Text) : Bool :=
  [['~'], "null".toList, "Null".toList, "NULL".toList].contains t

def bool? (t : Text) : Option Bool :=
  if ["true".toList, "True".toList, "TRUE".toList].contains t then some true
  else if ["false".toList, "False".toList, "FALSE".toList].contains t then some false
  else none

def afterPlus (t : Text) : Text :=
  match t with
  | '+' :: rest => rest
  | t => t

/-- Digits behind a leading zero are no number. -/
def isPaddedDigits (t : Text) : Bool :=
  let digits := match t with
    | '-' :: rest => rest
    | '+' :: rest => rest
    | t => t
  match digits with
  | '0' :: d :: rest => (d :: rest).all Char.isDigit
  | _ => false

/-- The absolute value of digits after their sign, in the base that their mark gives. -/
def magnitude? (padded : Bool) (t : Text) : Option Nat :=
  let decimal := if padded then none else Text.toNat? 10 t
  match t with
  | '0' :: 'x' :: rest => Text.toNat? 16 rest
  | '0' :: 'o' :: rest => Text.toNat? 8 rest
  | '0' :: 'b' :: rest => Text.toNat? 2 rest
  | _ => decimal

/-- A whole number, of any size. -/
def int? (t : Text) : Option Int :=
  match t with
  | '-' :: rest => (magnitude? (isPaddedDigits t) rest).map fun n => -(n : Int)
  | t => (magnitude? (isPaddedDigits t) (afterPlus t)).map Int.ofNat

/-- The decimal digits of a float: at least one, on either side of the point. -/
def decimal? (t : Text) : Option Decimal := do
  let letter (c : Char) : Bool := c == 'e' || c == 'E'
  let mantissa := t.takeWhile (!letter ·)
  let (whole, fraction) := (Text.cut '.' mantissa).getD (mantissa, [])
  let coefficient ← Text.toNat? 10 (whole ++ fraction)
  let power ← match t.dropWhile (!letter ·) with
    | [] => some 0
    | _ :: '-' :: digits => (Text.toNat? 10 digits).map fun n => -(n : Int)
    | _ :: digits => (Text.toNat? 10 (afterPlus digits)).map Int.ofNat
  some ⟨coefficient, power - fraction.length⟩

def finite? (negative : Bool) (t : Text) : Option Binary64 :=
  (decimal? t).bind fun d =>
    let x := d.toBinary64 negative
    if x.isFinite then some x else none

/-- A float, with the names of the infinities and of the NaN. -/
def float? (t : Text) : Option Binary64 :=
  let infinite (t : Text) : Bool := [".inf".toList, ".Inf".toList, ".INF".toList].contains t
  if [".nan".toList, ".NaN".toList, ".NAN".toList].contains t then some .nan
  else match t with
    | '-' :: rest => if infinite rest then some (.infinity true) else finite? true rest
    | '+' :: '-' :: _ => none
    | t => if infinite (afterPlus t) then some (.infinity false) else finite? false (afterPlus t)

def fits (i : Int) : Bool := -Int.pow 2 63 ≤ i && i < Int.pow 2 64

/-- Whole numbers beyond 64 bits but within 128 bits are refused. -/
def refused (i : Int) : Bool := !fits i && -Int.pow 2 127 ≤ i && i < Int.pow 2 128

/-- The value of an untagged plain scalar. -/
def resolve (t : Text) : Option Json :=
  if t.isEmpty || isNull t then some .null
  else match bool? t with
    | some b => some (.bool b)
    | none =>
      let float : Json := match (if isPaddedDigits t then none else float? t) with
        | some x => .ofFloat x
        | none => .string t
      match int? t with
      | some i =>
        if fits i then some (.number (.whole i)) else if refused i then none else some float
      | none => some float

/-- The value of a scalar whose tag demands a kind. Tags of other kinds make it a text. -/
def tagged (tag t : Text) : Option Json :=
  let kind (name : String) : Text := "tag:yaml.org,2002:".toList ++ name.toList
  if tag = kind "bool" then (bool? t).map .bool
  else if tag = kind "int" then
    (int? t).bind fun i => if fits i then some (.number (.whole i)) else none
  else if tag = kind "float" then (float? t).map .ofFloat
  else if tag = kind "null" then if isNull t then some .null else none
  else some (.string t)

end Stencil.Yaml.Plain
