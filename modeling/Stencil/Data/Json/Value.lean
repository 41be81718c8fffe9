import Stencil.Data.Json
import Stencil.Value

/-! Template values as JSON values, which carry no tag, and back. -/

namespace Stencil

/-- The range of the integer values. -/
def inInt64 (i : Int) : Bool := -Int.pow 2 63 ≤ i && i < Int.pow 2 63

def Value.toJson : Value → Json
  | bool b => .bool b
  | int i => .number (.whole i.toInt)
  | float x => .ofFloat x
  | text t => .string t
  | lines ls => .array (ls.map .string)

namespace Json

def asText? : Json → Option Text
  | string t => some t
  | _ => none

/-- The first kind of value that takes the JSON value as it is. Whole numbers beyond the integers
become floats; null, objects, and arrays that hold anything but strings are no values. -/
def asValue? : Json → Option Value
  | bool b => some (.bool b)
  | number (.whole i) => some (if inInt64 i then .int (Int64.ofInt i) else .float (.ofInt i))
  | number (.float x) => some (.float x)
  | string t => some (.text t)
  | array items => (items.mapM asText?).map .lines
  | null => none
  | object _ => none

end Json

end Stencil
