import Stencil.Template.Machine
import Stencil.Template.Scan

/-! Expansion of a template against a resolver. -/

namespace Stencil

/-- Runs the machine over the items of a template. An error is reported with the line at which the
machine stands. -/
def Machine.run {σ : Type} (r : Resolver σ) :
    List Item → Machine → σ → Except TemplateError (List Text) × σ
  | [], m, s => (m.finish, s)
  | .error e :: _, m, s => (.error (.atLine m.line e), s)
  | .ok token :: items, m, s =>
    match m.step r token s with
    | (.ok m, s) => run r items m s
    | (.error e, s) => (.error (.atLine m.line e), s)

/-- The output lines of a template, or the first error, and the state of the resolver afterwards. -/
def expand {σ : Type} (r : Resolver σ) (template : Text) (s : σ) :
    Except TemplateError (List Text) × σ :=
  Machine.run r (tokenize template) .start s

/-- The output lines as one text. -/
def expandToText {σ : Type} (r : Resolver σ) (template : Text) (s : σ) :
    Except TemplateError Text × σ :=
  let (lines, s) := expand r template s
  (lines.map (Text.joined ['\n']), s)

end Stencil
