import Stencil.Data.Json
import Stencil.Data.Json.Value

/-! TOML values. A table holds each key once, in the order of the keys; a date or time is the text
it is written as. -/

namespace Stencil

inductive Toml where
  | string (t : Text)
  | integer (i : Int)
  | float (x : Binary64)
  | boolean (b : Bool)
  | datetime (t : Text)
  | array (items : List Toml)
  | table (entries : List (Text × Toml))
  deriving Inhabited

namespace Toml

mutual

/-- Whether every integer inside is one of 64 bits. -/
def fits : Toml → Bool
  | integer i => inInt64 i
  | array items => fitsItems items
  | table entries => fitsEntries entries
  | _ => true

def fitsItems : List Toml → Bool
  | [] => true
  | item :: items => fits item && fitsItems items

def fitsEntries : List (Text × Toml) → Bool
  | [] => true
  | (_, value) :: entries => fits value && fitsEntries entries

end

mutual

/-- The JSON value with the same content. JSON has no infinities and no NaN: the first one is the
error. -/
def toJson : Toml → Except Binary64 Json
  | string t => .ok (.string t)
  | integer i => .ok (.number (.whole i))
  | float x => if x.isFinite then .ok (.number (.float x)) else .error x
  | boolean b => .ok (.bool b)
  | datetime t => .ok (.string t)
  | array items => (itemsToJson items).map .array
  | table entries => (entriesToJson entries).map Json.ofEntries

def itemsToJson : List Toml → Except Binary64 (List Json)
  | [] => .ok []
  | item :: items => do
    let item ← toJson item
    let items ← itemsToJson items
    .ok (item :: items)

def entriesToJson : List (Text × Toml) → Except Binary64 (List (Text × Json))
  | [] => .ok []
  | (key, value) :: entries => do
    let value ← toJson value
    let entries ← entriesToJson entries
    .ok ((key, value) :: entries)

end

def asText? : Toml → Option Text
  | string t => some t
  | _ => none

/-- Whether an integer is one of 64 bits without a sign. -/
def isUnsigned (i : Int) : Bool := 0 ≤ i && i < Int.pow 2 64

/-- The first kind of template value that takes the TOML value as it is. An integer that only fits
without a sign becomes a float; larger ones, dates, tables, and arrays that hold anything but
strings are no values. -/
def asValue? : Toml → Option Value
  | boolean b => some (.bool b)
  | integer i =>
    if inInt64 i then some (.int (Int64.ofInt i))
    else if isUnsigned i then some (.float (.ofInt i))
    else none
  | float x => some (.float x)
  | string t => some (.text t)
  | array items => (items.mapM asText?).map .lines
  | datetime _ => none
  | table _ => none

end Toml

end Stencil
