import Stencil.Resolver.Basic
import Stencil.Resolver.Bindings

/-! A resolver of named members, each a value or a function of the parameters and the context. The
functions see the context moved by a base, so that what they render lines up with the text around
it. -/

namespace Stencil

inductive Member (σ : Type) where
  | value (v : Value)
  | callable (call : List Text → Context → σ → Except TemplateError (Option Value) × σ)

/-- The members, the base of their contexts, and the state that the callable ones share. -/
structure Members (σ : Type) where
  base : Context
  table : Bindings (Member σ)
  state : σ

namespace Members

variable {σ : Type}

def setValue (m : Members σ) (name : Text) (v : Value) : Members σ :=
  { m with table := m.table.insert name (.value v) }

def bind (m : Members σ) (name : Text)
    (call : List Text → Context → σ → Except TemplateError (Option Value) × σ) : Members σ :=
  { m with table := m.table.insert name (.callable call) }

end Members

/-- An assignment creates a value member, or replaces any member. -/
def Resolver.members {σ : Type} : Resolver (Members σ) where
  resolve key params context m :=
    match m.table.find? key with
    | some (.value v) => (.ok (some v), m)
    | some (.callable call) =>
      let (result, state) := call params (context.offsetBy m.base) m.state
      (result, { m with state })
    | none => (.error (.unknownKey key), m)
  assign name text m := (.ok (), m.setValue name (.text text))

end Stencil
