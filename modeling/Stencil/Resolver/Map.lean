import Stencil.Resolver.Basic
import Stencil.Resolver.Bindings

/-! A resolver over a fixed set of named values, to which the template may add. -/

namespace Stencil.Resolver

/-- Names without a value are errors. An assignment binds the text on its right. -/
def bindings : Resolver (Bindings Value) where
  resolve key _ _ values :=
    match values.find? key with
    | some value => (.ok (some value), values)
    | none => (.error (.unknownKey key), values)
  assign name text values := (.ok (), values.insert name (.text text))

end Stencil.Resolver
