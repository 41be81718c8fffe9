import Stencil.Data.Toml.Branch
import Stencil.Data.Toml.Scalar

/-! Reading a TOML document. -/

namespace Stencil.Toml

open Scalar

/-- What follows an optional comment, up to the end of its line. -/
def skipComment : Text → Option Text
  | '#' :: rest =>
    let after := rest.dropWhile isPlain
    if after.isEmpty || (newline? after).isSome then some after else none
  | t => some t

/-- Skips spaces, line breaks and comments. -/
def skipLines : Nat → Text → Option Text
  | 0, _ => none
  | fuel + 1, t =>
    (skipComment (skipSpaces t)).bind fun rest =>
      match newline? rest with
      | some rest => skipLines fuel rest
      | none => some rest

/-- After a key and its value, or a header, only a comment may follow on the line. -/
def endOfLine (t : Text) : Option Text :=
  (skipComment (skipSpaces t)).bind fun rest =>
    if rest.isEmpty then some [] else newline? rest

def isBareKeyChar (c : Char) : Bool := c.isAlphanum || c == '-' || c == '_'

/-- One part of a key. -/
def keyPart (t : Text) : Option (Text × Text) :=
  match t with
  | '"' :: rest => basic t.length [] rest
  | '\'' :: rest => literal rest
  | t =>
    let bare := t.takeWhile isBareKeyChar
    if bare.isEmpty then none else some (bare, t.dropWhile isBareKeyChar)

/-- The greatest number of parts of a key, and of arrays and inline tables around a value. -/
def maxDepth : Nat := 80

/-- The parts of a dotted key, and the text after the spaces that follow it. -/
def keyParts : Nat → Text → Option (List Text × Text)
  | 0, _ => none
  | more + 1, t =>
    (keyPart (skipSpaces t)).bind fun (part, rest) =>
      match skipSpaces rest with
      | '.' :: rest => (keyParts more rest).map fun (parts, rest) => (part :: parts, rest)
      | rest => some ([part], rest)

def key (t : Text) : Option (List Text × Text) := keyParts maxDepth t

mutual

/-- A value at the start of a text; `depth` bounds the nesting of arrays and inline tables. -/
def value : Nat → Nat → Text → Option (Toml × Text)
  | 0, _, _ => none
  | fuel + 1, depth, t =>
    match string? t with
    | some found => found.map fun (s, rest) => (.string s, rest)
    | none =>
      match t, depth with
      | '[' :: rest, depth + 1 =>
        (items fuel depth [] rest).map fun (found, rest) => (.array found, rest)
      | '\x7b' :: rest, depth + 1 =>
        (inlineEntries fuel depth [] rest).map fun (found, rest) =>
          (.table (Branch.entriesValue found), rest)
      | t, _ => word? t

/-- The items of an array up to its closing bracket. -/
def items : Nat → Nat → List Toml → Text → Option (List Toml × Text)
  | 0, _, _, _ => none
  | fuel + 1, depth, found, t => do
    match ← skipLines (fuel + 1) t with
    | ']' :: rest => some (found.reverse, rest)
    | rest =>
      let (item, rest) ← value fuel depth rest
      match ← skipLines (fuel + 1) rest with
      | ',' :: rest => items fuel depth (item :: found) rest
      | ']' :: rest => some ((item :: found).reverse, rest)
      | _ => none

/-- The entries of an inline table up to its closing brace. -/
def inlineEntries : Nat → Nat → Entries → Text → Option (Entries × Text)
  | 0, _, _, _ => none
  | fuel + 1, depth, found, t => do
    match ← skipLines (fuel + 1) t with
    | '\x7d' :: rest => some (found, rest)
    | rest =>
      let (path, rest) ← key rest
      let rest ← "=".toList.isPrefixOf? (← skipLines (fuel + 1) rest)
      let (item, rest) ← value fuel depth (← skipLines (fuel + 1) rest)
      let found ← Branch.addDotted item path found
      match ← skipLines (fuel + 1) rest with
      | ',' :: rest => inlineEntries fuel depth found rest
      | '\x7d' :: rest => some (found, rest)
      | _ => none

end

/-- A document while it is read: its tables, and the path of the header that is in force. -/
structure Draft where
  entries : Entries
  path : List Text

/-- Reads a header in brackets, whose last key opens a table. -/
def header (openWith : Text → Entries → Option Entries) (closing : Text) (d : Draft)
    (t : Text) : Option (Draft × Text) := do
  let (path, rest) ← key t
  let rest ← closing.isPrefixOf? rest
  let rest ← endOfLine rest
  let last ← path.getLast?
  let entries ← Branch.underHeader (openWith last) path.dropLast d.entries
  some (⟨entries, path⟩, rest)

/-- Reads a key with its value into the table of the header in force. -/
def keyValue (fuel : Nat) (d : Draft) (t : Text) : Option (Draft × Text) := do
  let (path, rest) ← key t
  let rest ← "=".toList.isPrefixOf? rest
  let (item, rest) ← value fuel maxDepth (skipSpaces rest)
  let rest ← endOfLine rest
  let entries ← Branch.underHeader (Branch.addDotted item path) d.path d.entries
  some ({ d with entries }, rest)

/-- Reads the lines of a document. -/
def lines : Nat → Draft → Text → Option Entries
  | 0, _, _ => none
  | fuel + 1, d, t => do
    match ← skipLines (fuel + 1) t with
    | [] => some d.entries
    | '[' :: '[' :: rest =>
      let (d, rest) ← header Branch.openItem "]]" d rest
      lines fuel d rest
    | '[' :: rest =>
      let (d, rest) ← header Branch.openTable "]" d rest
      lines fuel d rest
    | rest =>
      let (d, rest) ← keyValue (fuel + 1) d rest
      lines fuel d rest

/-- The entries of a document. A byte order mark at its start is skipped. -/
def read (t : Text) : Option (List (Text × Toml)) :=
  let t := match t with
    | '\uFEFF' :: rest => rest
    | t => t
  (lines (t.length + 1) ⟨[], []⟩ t).map Branch.entriesValue

end Stencil.Toml
