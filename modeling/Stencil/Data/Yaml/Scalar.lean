import Stencil.Data.Yaml.Cursor

/-! The three kinds of YAML scalars as they stand in the text: block, quoted and plain. -/

namespace Stencil.Yaml

/-- Blanks between two words of a scalar: the spaces, or the breaks if there are any. -/
structure Blanks where
  spaces : Text
  first : Text
  more : Text
  broken : Bool

namespace Blanks

def none : Blanks := ⟨[], [], [], false⟩

/-- A line feed between two words becomes a space, unless more breaks follow it. -/
def fold (b : Blanks) : Text :=
  if !b.broken then b.spaces
  else if b.first = ['\n'] then if b.more.isEmpty then [' '] else b.more
  else b.first ++ b.more

/-- Reads blanks. In plain scalars a tab must not stand before the column `indent` of a line. -/
def read (indent : Option Int) : Nat → Blanks → Cursor → Option (Blanks × Cursor)
  | 0, _, _ => .none
  | fuel + 1, b, c =>
    match c.rest with
    | x :: _ =>
      if isSpaceOrTab x then
        if b.broken then
          if x == '\t' && indent.any (fun i => (c.column : Int) < i) then .none
          else read indent fuel b (c.skip 1)
        else read indent fuel { b with spaces := b.spaces ++ [x] } (c.skip 1)
      else if isBreak x then
        if b.broken then read indent fuel { b with more := b.more ++ c.lineBreak } c.skipBreak
        else read indent fuel { b with first := c.lineBreak, broken := true } c.skipBreak
      else some (b, c)
    | [] => some (b, c)

end Blanks

namespace Scalar

def hexEscape (count : Nat) (c : Cursor) : Option (Char × Cursor) := do
  let digits := c.rest.take count
  if digits.length < count then none
  else
    let n ← Text.toNat? 16 digits
    if n < 0xD800 || (0xE000 ≤ n && n < 0x110000) then some (Char.ofNat n, c.skip count) else none

/-- The character of an escape after its backslash. -/
def escape (c : Cursor) : Option (Char × Cursor) :=
  let is (x : Char) : Option (Char × Cursor) := some (x, c.skip 1)
  match c.rest.head? with
  | some '0' => is '\x00'
  | some 'a' => is '\x07'
  | some 'b' => is '\x08'
  | some 't' => is '\t'
  | some '\t' => is '\t'
  | some 'n' => is '\n'
  | some 'v' => is '\x0b'
  | some 'f' => is '\x0c'
  | some 'r' => is '\r'
  | some 'e' => is '\x1b'
  | some ' ' => is ' '
  | some '"' => is '"'
  | some '/' => is '/'
  | some '\\' => is '\\'
  | some 'N' => is '\u0085'
  | some '_' => is '\u00a0'
  | some 'L' => is '\u2028'
  | some 'P' => is '\u2029'
  | some 'x' => hexEscape 2 (c.skip 1)
  | some 'u' => hexEscape 4 (c.skip 1)
  | some 'U' => hexEscape 8 (c.skip 1)
  | _ => none

/-- Reads the characters of a quoted scalar up to a blank or the closing quote; the characters read
come last first. The flag says that an escaped break was read. -/
def quotedRun (quote : Char) : Nat → Text → Cursor → Option (Text × Cursor × Bool)
  | 0, _, _ => none
  | fuel + 1, read, c =>
    match c.rest with
    | [] => some (read, c, false)
    | x :: _ =>
      if isSpaceOrTab x || isBreak x then some (read, c, false)
      else if x == quote then
        if quote == '\'' && c.seesChar 1 '\'' then quotedRun quote fuel ('\'' :: read) (c.skip 2)
        else some (read, c, false)
      else if quote == '"' && x == '\\' then
        if c.sees 1 isBreak then some (read, (c.skip 1).skipBreak, true)
        else
          (escape (c.skip 1)).bind fun (y, c) => quotedRun quote fuel (y :: read) c
      else quotedRun quote fuel (x :: read) (c.skip 1)

/-- A quoted scalar after its opening quote. -/
def quoted (quote : Char) : Nat → Text → Cursor → Option (Text × Cursor)
  | 0, _, _ => none
  | fuel + 1, read, c =>
    if c.seesDocumentMarker || c.atEnd then none
    else
      (quotedRun quote (fuel + 1) read c).bind fun (read, c, escaped) =>
        if c.seesChar 0 quote then some (read.reverse, c.skip 1)
        else
          (Blanks.read none (fuel + 1) { Blanks.none with broken := escaped } c).bind fun (b, c) =>
            quoted quote fuel (b.fold.reverse ++ read) c

def isFlowIndicator (x : Char) : Bool :=
  x == ',' || x == '[' || x == ']' || x == '\x7b' || x == '\x7d'

/-- Reads the characters of a plain scalar up to a blank or an indicator that ends it. -/
def plainRun (inFlow : Bool) : Nat → Text → Cursor → Option (Text × Cursor)
  | 0, _, _ => none
  | fuel + 1, read, c =>
    match c.rest with
    | [] => some (read, c)
    | x :: _ =>
      if isSpaceOrTab x || isBreak x then some (read, c)
      else if inFlow && x == ':' && c.sees 1 (fun y => isFlowIndicator y || y == '?') then none
      else if x == ':' && c.blankOrEnd 1 then some (read, c)
      else if inFlow && isFlowIndicator x then some (read, c)
      else plainRun inFlow fuel (x :: read) (c.skip 1)

/-- A plain scalar, and whether a break follows it. The blanks before each run are folded into the
text when the run is not empty. -/
def plain (inFlow : Bool) (indent : Int) :
    Nat → Text → Blanks → Cursor → Option (Text × Bool × Cursor)
  | 0, _, _, _ => none
  | fuel + 1, read, b, c =>
    let stop := some (read.reverse, b.broken, c)
    if c.seesDocumentMarker || c.seesChar 0 '#' then stop
    else
      (plainRun inFlow (fuel + 1) [] c).bind fun (run, after) =>
        if run.isEmpty then stop
        else
          let read := run ++ b.fold.reverse ++ read
          if after.sees 0 (fun x => isSpaceOrTab x || isBreak x) then
            (Blanks.read (some indent) (fuel + 1) .none after).bind fun (b, c) =>
              if !inFlow && (c.column : Int) < indent then some (read.reverse, b.broken, c)
              else plain inFlow indent fuel read b c
          else some (read.reverse, false, after)

inductive Chomping where
  | strip
  | clip
  | keep
  deriving DecidableEq

/-- The marks after the indicator of a block scalar: how to treat its final breaks, and the extra
indentation of its lines, in either order. -/
def blockHeader (c : Cursor) : Option (Chomping × Nat × Cursor) :=
  let chomp (c : Cursor) : Chomping × Cursor :=
    if c.seesChar 0 '+' then (.keep, c.skip 1)
    else if c.seesChar 0 '-' then (.strip, c.skip 1)
    else (.clip, c)
  let width (c : Cursor) : Option (Nat × Cursor) :=
    match c.rest with
    | x :: _ =>
      if x == '0' then none
      else if x.isDigit then some (x.toNat - '0'.toNat, c.skip 1)
      else some (0, c)
    | [] => some (0, c)
  if c.sees 0 Char.isDigit then
    (width c).map fun (n, c) => let (chomping, c) := chomp c; (chomping, n, c)
  else
    let (chomping, c) := chomp c
    if chomping = .clip then some (chomping, 0, c)
    else (width c).map fun (n, c) => (chomping, n, c)

/-- The breaks before the next line with text, and the cursor at its indentation. While the
indentation is not known every space is skipped, and the deepest column seen is returned. -/
def blockBreaks (indent : Nat) : Nat → Nat → Text → Cursor → Option (Nat × Text × Cursor)
  | 0, _, _, _ => none
  | fuel + 1, deepest, breaks, c =>
    let ahead := (c.rest.takeWhile (· == ' ')).length
    let c := c.skip (if indent = 0 then ahead else min ahead (indent - c.column))
    let deepest := max deepest c.column
    if (indent = 0 || c.column < indent) && c.seesChar 0 '\t' then none
    else if c.sees 0 isBreak then
      blockBreaks indent fuel deepest (breaks ++ c.lineBreak) c.skipBreak
    else some (deepest, breaks, c)

/-- The lines of a block scalar. `first` is the break after the line before, `more` the breaks of
the empty lines after it, and `blankBefore` says that the line before started with a blank. -/
def blockLines (folded : Bool) (indent : Nat) :
    Nat → Text → Text → Text → Bool → Cursor → Option (Text × Text × Text × Cursor)
  | 0, _, _, _, _, _ => none
  | fuel + 1, read, first, more, blankBefore, c =>
    if c.column = indent && !c.atEnd then
      let blank := c.sees 0 isSpaceOrTab
      let joint :=
        if folded && first = ['\n'] && !blankBefore && !blank then
          if more.isEmpty then [' '] else more
        else first ++ more
      let text := c.rest.takeWhile (!isBreak ·)
      let c := c.skipToBreak
      let first := c.lineBreak
      (blockBreaks indent (fuel + 1) 0 [] c.skipBreak).bind fun (_, more, c) =>
        blockLines folded indent fuel (read ++ joint ++ text) first more blank c
    else some (read, first, more, c)

/-- A block scalar after its indicator, inside a block of the given indentation. -/
def block (folded : Bool) (outer : Int) (c : Cursor) : Option (Text × Cursor) := do
  let fuel := c.rest.length + 1
  let (chomping, extra, c) ← blockHeader c
  let c := c.skipWhile isSpaceOrTab
  let c := if c.seesChar 0 '#' then c.skipToBreak else c
  if !c.breakOrEnd 0 then none
  else
    let c := c.skipBreak
    let given : Nat := if extra = 0 then 0 else (max outer 0).toNat + extra
    let (deepest, more, c) ← blockBreaks given fuel 0 [] c
    let indent := if given = 0 then max (max deepest (outer + 1).toNat) 1 else given
    let (read, first, more, c) ← blockLines folded indent fuel [] [] more false c
    match chomping with
    | .strip => some (read, c)
    | .clip => some (read ++ first, c)
    | .keep => some (read ++ first ++ more, c)

end Scalar

end Stencil.Yaml
