import Stencil.Value

/-! The output of an expansion: completed lines and the line being built. -/

namespace Stencil

structure Output where
  lines : List Text
  current : Text
  /-- The number of characters of the line being built. -/
  column : Nat
  deriving DecidableEq

namespace Output

def empty : Output := ⟨[], [], 0⟩

/-- Extends the line being built by a piece without line breaks. -/
def push (o : Output) (piece : Text) : Output :=
  { o with current := o.current ++ piece, column := o.column + piece.length }

def discard (o : Output) : Output := { o with current := [], column := 0 }

/-- Completes the line being built as it is. -/
def breakLine (o : Output) : Output := discard { o with lines := o.lines ++ [o.current] }

/-- Completes the line being built without the blanks at its end. -/
def endLine (o : Output) : Output :=
  discard { o with lines := o.lines ++ [Text.trimEnd o.current] }

/-- Adds text that may run over several lines. -/
def addText (o : Output) (t : Text) : Output :=
  match t.splitOn '\n' with
  | [] => o
  | first :: rest => rest.foldl (fun o piece => o.breakLine.push piece) (o.push first)

def isBlank (o : Output) : Bool := Text.allBlank o.current

/-- The spaces and tabs at the start of the line being built. -/
def indentation (o : Output) : Text := o.current.takeWhile fun c => c == ' ' || c == '\t'

/-- The indentation with spaces out to the column. -/
def alignment (o : Output) : Text :=
  o.indentation ++ Text.spaces (o.column - o.indentation.length)

def context (o : Output) : Context := ⟨o.indentation, o.column⟩

/-- A line of a spliced list between its first and its last. -/
def interior (alignment line : Text) : Text := if line.isEmpty then [] else alignment ++ line

/-- Adds a list of lines whose lines after the first start at the column of the first. -/
def splice (o : Output) : List Text → Output
  | [] => o
  | [only] => o.addText only
  | first :: second :: more =>
    let alignment := o.alignment
    let rest := second :: more
    let opened := (o.addText first).breakLine
    let filled :=
      { opened with lines := opened.lines ++ rest.dropLast.map (interior alignment) }
    filled.addText (alignment ++ rest.getLastD [])

/-- Adds a value at the column. -/
def addValue (o : Output) : Value → Output
  | .lines ls => o.splice ls
  | v => o.addText v.display

/-- Pads the line being built with the part of `alignment` beyond the column. -/
def padTo (o : Output) (alignment : Text) : Output := o.push (alignment.drop o.column)

end Output

end Stencil
