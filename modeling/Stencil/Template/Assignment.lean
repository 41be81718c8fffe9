import Stencil.Text

/-! Assignments of text to names, written `name=value`. -/

namespace Stencil

structure Assignment where
  name : Text
  value : Text
  deriving DecidableEq

/-- The name ends at the first equals sign and must not be empty. -/
def Assignment.read? (t : Text) : Option Assignment :=
  match Text.cut '=' t with
  | some (c :: name, value) => some ⟨c :: name, value⟩
  | _ => none

end Stencil
