import Stencil.Diff.Settle
import Stencil.Text.Style

/-! Differences between two texts, line by line. -/

namespace Stencil.Diff

/-- The lines of a text with the line breaks that end them; the last line may lack one. A carriage
return breaks a line too, together with a line feed that follows it. -/
def linesFrom : Text → Text → List Text
  | [], [] => []
  | read, [] => [read.reverse]
  | read, '\r' :: '\n' :: rest => ('\n' :: '\r' :: read).reverse :: linesFrom [] rest
  | read, c :: rest =>
    if c = '\n' ∨ c = '\r' then (c :: read).reverse :: linesFrom [] rest
    else linesFrom (c :: read) rest

def lines (t : Text) : List Text := linesFrom [] t

/-- The line with a line break at its end. -/
def closed (line : Text) : Text :=
  match line.getLast? with
  | some '\n' | some '\r' => line
  | _ => line ++ ['\n']

def ofLine (styled : Bool) (mark : Option (Char × Style)) (line : Text) : Text :=
  match mark with
  | none => ' ' :: ' ' :: ' ' :: closed line
  | some (c, style) => ' ' :: ' ' :: style.apply styled (c :: closed line)

/-- The drops of a run come before its additions. -/
def ofScript (styled : Bool) : List Text → List Text → Script Text → Text
  | dropped, added, .drop items :: rest => ofScript styled (dropped ++ items) added rest
  | dropped, added, .add items :: rest => ofScript styled dropped (added ++ items) rest
  | dropped, added, .keep items :: rest =>
    run dropped added ++ items.flatMap (ofLine styled none) ++ ofScript styled [] [] rest
  | dropped, added, [] => run dropped added
where
  run (dropped added : List Text) : Text :=
    dropped.flatMap (ofLine styled (some ('-', .red))) ++
      added.flatMap (ofLine styled (some ('+', .green)))

/-- The lines of both texts in order, marked where they belong to one text only. -/
def report (styled : Bool) (old new : Text) : Text :=
  ofScript styled [] [] (settle (script (lines old) (lines new)))

end Stencil.Diff
