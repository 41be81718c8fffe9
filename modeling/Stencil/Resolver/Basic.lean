import Stencil.Value
import Stencil.Template.Error

/-! Where a template's values come from. -/

namespace Stencil

/-- A source of values with a state that every request may change, failed ones included. -/
structure Resolver (σ : Type) where
  /-- The value of a key with parameters, asked for at a place in the output. -/
  resolve : Text → List Text → Context → σ → Except TemplateError (Option Value) × σ
  /-- Takes an assignment made by the template. -/
  assign : Text → Text → σ → Except TemplateError Unit × σ

end Stencil
