import Stencil.Text

/-! A place in a YAML text: the characters ahead, and the line and column they are at. -/

namespace Stencil.Yaml

structure Cursor where
  rest : Text
  /-- The number of characters before the place. -/
  index : Nat
  line : Nat
  column : Nat

def isSpaceOrTab (c : Char) : Bool := c == ' ' || c == '\t'

def isBreak (c : Char) : Bool :=
  c == '\n' || c == '\r' || c == '\u0085' || c == '\u2028' || c == '\u2029'

/-- The characters of names: of anchors, directives and tag handles. -/
def isNameChar (c : Char) : Bool := c.isAlphanum || c == '_' || c == '-'

namespace Cursor

def ofText (t : Text) : Cursor := ⟨t, 0, 0, 0⟩

def atEnd (c : Cursor) : Bool := c.rest.isEmpty

def peek (c : Cursor) (n : Nat) : Option Char := c.rest[n]?

/-- Whether the `n`-th character ahead satisfies `p`; there is none beyond the end. -/
def sees (c : Cursor) (n : Nat) (p : Char → Bool) : Bool := (c.peek n).any p

def seesChar (c : Cursor) (n : Nat) (x : Char) : Bool := c.peek n == some x

/-- Whether the `n`-th character ahead ends a word: a space, a tab, a break, or the end. -/
def blankOrEnd (c : Cursor) (n : Nat) : Bool :=
  (c.peek n).all fun x => isSpaceOrTab x || isBreak x

def breakOrEnd (c : Cursor) (n : Nat) : Bool := (c.peek n).all isBreak

/-- Moves over characters of the line. -/
def skip (c : Cursor) (n : Nat) : Cursor :=
  { c with rest := c.rest.drop n, index := c.index + n, column := c.column + n }

def skipWhile (c : Cursor) (p : Char → Bool) : Cursor := c.skip (c.rest.takeWhile p).length

def skipToBreak (c : Cursor) : Cursor := c.skipWhile (!isBreak ·)

/-- The break ahead as it is read: every break but the Unicode separators is a line feed. Nothing is
ahead at the end. -/
def lineBreak (c : Cursor) : Text :=
  match c.rest with
  | [] => []
  | '\u2028' :: _ => ['\u2028']
  | '\u2029' :: _ => ['\u2029']
  | _ => ['\n']

/-- Moves over a break, to the start of the next line. -/
def skipBreak (c : Cursor) : Cursor :=
  match c.rest with
  | [] => c
  | '\r' :: '\n' :: rest => ⟨rest, c.index + 2, c.line + 1, 0⟩
  | _ :: rest => ⟨rest, c.index + 1, c.line + 1, 0⟩

/-- Whether a line starts here with three times the given character, as a word. -/
def seesMarker (c : Cursor) (x : Char) : Bool :=
  c.column == 0 && c.seesChar 0 x && c.seesChar 1 x && c.seesChar 2 x && c.blankOrEnd 3

def seesDocumentMarker (c : Cursor) : Bool := c.seesMarker '-' || c.seesMarker '.'

end Cursor

end Stencil.Yaml
