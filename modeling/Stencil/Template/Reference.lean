import Stencil.Template.Error

/-! References to values: a key, or a key with parameters in parentheses. -/

namespace Stencil

structure Reference where
  key : Text
  params : List Text
  deriving DecidableEq

namespace Reference

/-- Reads `key(a, b)`. The list ends at the first closing parenthesis; what follows it is ignored. -/
def parse (content : Text) : Except TemplateError Reference :=
  match Text.cut '(' content with
  | none => .ok ⟨content, []⟩
  | some (key, rest) =>
    match Text.cut ')' rest with
    | none => .error (.unclosedParameterList content)
    | some (inside, _) => .ok ⟨key, (inside.splitOn ',').map Text.trim⟩

def render (r : Reference) : Text :=
  match r.params with
  | [] => r.key
  | params => r.key ++ '(' :: Text.joined [','] params ++ [')']

end Reference

end Stencil
