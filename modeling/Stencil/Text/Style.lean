import Stencil.Text

/-! Text styles of a terminal. -/

namespace Stencil

inductive Style where
  | red
  | green
  | dimmed
  deriving DecidableEq

namespace Style

def opening : Style → Text
  | red => "\x1b[31m"
  | green => "\x1b[32m"
  | dimmed => "\x1b[2m"

/-- Colours and brightness are reset each on its own. -/
def closing : Style → Text
  | red | green => "\x1b[39m"
  | dimmed => "\x1b[0m"

/-- The text in the style, or the bare text where styles are off. -/
def apply (s : Style) (styled : Bool) (t : Text) : Text :=
  if styled then s.opening ++ t ++ s.closing else t

end Style

end Stencil
