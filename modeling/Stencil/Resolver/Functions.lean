import Stencil.Resolver.Basic

/-! A resolver made of functions. -/

namespace Stencil.Resolver

/-- Without a function for assignments they are accepted and forgotten. -/
def ofFunctions {σ : Type}
    (resolve : Text → List Text → Context → σ → Except TemplateError (Option Value) × σ)
    (assign : Option (Text → Text → σ → Except TemplateError Unit × σ)) : Resolver σ where
  resolve
  assign := assign.getD fun _ _ s => (.ok (), s)

end Stencil.Resolver
