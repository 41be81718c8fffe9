import Stencil.Data.Yaml.Scalar

/-! YAML text as tokens. The start of a block, and the mark of a key, are found only when a colon
comes after the key, and are then put before it. -/

namespace Stencil.Yaml

inductive Token where
  | version
  | tagDirective (handle uri : Text)
  | documentStart
  | documentEnd
  | streamEnd
  | blockSequence
  | blockMapping
  | blockEnd
  | flowSequence
  | flowSequenceEnd
  | flowMapping
  | flowMappingEnd
  | blockEntry
  | flowEntry
  | key
  | value
  | alias (name : Text)
  | anchor (name : Text)
  | tag (handle suffix : Text)
  | scalar (plain : Bool) (t : Text)
  deriving DecidableEq, Inhabited

/-- A place where a key may have started: a colon after it makes it one. -/
structure Candidate where
  /-- Without a colon the text is faulty. -/
  required : Bool
  index : Nat
  line : Nat
  column : Nat
  /-- The number of tokens before the place. -/
  position : Nat

structure Reader where
  cursor : Cursor
  /-- How many brackets and braces are open. -/
  flow : Nat
  /-- The column of the innermost open block, −1 outside all blocks. -/
  indent : Int
  /-- The columns of the blocks around it. -/
  outer : List Int
  /-- Whether a key may start here. -/
  keyAllowed : Bool
  /-- The candidate of each open flow collection, the innermost first, and last of the block. -/
  candidates : List (Option Candidate)
  tokens : Array Token

namespace Reader

def start (t : Text) : Reader := ⟨.ofText t, 0, -1, [], true, [none], #[]⟩

def emit (r : Reader) (t : Token) : Reader := { r with tokens := r.tokens.push t }

/-- Moves over an indicator and emits its token. -/
def indicator (r : Reader) (width : Nat) (t : Token) : Reader :=
  { r with cursor := r.cursor.skip width }.emit t

def inFlow (r : Reader) : Bool := r.flow != 0

def column (r : Reader) : Int := r.cursor.column

def allowKey (r : Reader) (keyAllowed : Bool) : Reader := { r with keyAllowed }

/-- Closes the blocks that are deeper than a column. -/
def closeBlocks (column : Int) : List Int → Reader → Reader
  | [], r => r
  | outer :: rest, r =>
    if r.inFlow || r.indent ≤ column then r
    else closeBlocks column rest ({ r with indent := outer, outer := rest }.emit .blockEnd)

def closeDeeper (r : Reader) (column : Int) : Reader := closeBlocks column r.outer r

/-- Opens a block at a column if it is deeper than the one around it. The token goes before the
token at `position`. -/
def openBlock (r : Reader) (column : Int) (position : Nat) (t : Token) : Reader :=
  if r.inFlow || column ≤ r.indent then r
  else
    { r with
      indent := column, outer := r.indent :: r.outer,
      tokens := r.tokens.insertIdxIfInBounds position t }

/-- Forgets the candidate. -/
def dropCandidate (r : Reader) : Option Reader :=
  match r.candidates with
  | some candidate :: rest =>
    if candidate.required then none else some { r with candidates := none :: rest }
  | _ => some r

/-- Takes the present place for a candidate, if a key is allowed. -/
def markCandidate (r : Reader) : Option Reader :=
  if r.keyAllowed then
    r.dropCandidate.map fun r =>
      let c := r.cursor
      let candidate : Candidate :=
        ⟨!r.inFlow && r.indent == r.column, c.index, c.line, c.column, r.tokens.size⟩
      { r with candidates := some candidate :: r.candidates.drop 1 }
  else some r

/-- The candidate, if the colon ahead can still belong to it: on the same line, and within 1024
characters. -/
def candidate (r : Reader) : Option (Option Candidate) :=
  match r.candidates with
  | some candidate :: _ =>
    if candidate.line < r.cursor.line || candidate.index + 1024 < r.cursor.index then
      if candidate.required then none else some none
    else some (some candidate)
  | _ => some none

/-- Moves to the next token: over spaces, comments and breaks, and over a byte order mark at the
start of a line, which keeps its column. Tabs count as spaces where no key can start. -/
def toNext : Nat → Reader → Reader
  | 0, r => r
  | fuel + 1, r =>
    let tabs := r.inFlow || !r.keyAllowed
    let marked := r.cursor.column = 0 && r.cursor.seesChar 0 '\uFEFF'
    let c := if marked then r.cursor.skip 1 else r.cursor
    let c := c.skipWhile fun x => x == ' ' || (tabs && x == '\t')
    let c := if c.seesChar 0 '#' then c.skipToBreak else c
    if c.sees 0 isBreak then
      toNext fuel { r with cursor := c.skipBreak, keyAllowed := r.keyAllowed || !r.inFlow }
    else { r with cursor := c }

/-- The characters of a tag; percent signs and two digits stand for bytes of UTF-8. -/
def isTagChar (verbatim : Bool) (x : Char) : Bool :=
  isNameChar x || ";/?:@&=+$.!~*'()".toList.contains x ||
    (verbatim && (x == ',' || x == '[' || x == ']'))

/-- Bytes written with percent signs. -/
def percentBytes : Nat → Cursor → Option (List UInt8 × Cursor)
  | 0, _ => none
  | fuel + 1, c =>
    match c.rest with
    | '%' :: a :: b :: _ => do
      let n ← Text.toNat? 16 [a, b]
      let (bytes, c) ← percentBytes fuel (c.skip 3)
      some (n.toUInt8 :: bytes, c)
    | '%' :: _ => none
    | _ => some ([], c)

def tagText (verbatim : Bool) : Nat → Text → Cursor → Option (Text × Cursor)
  | 0, _, _ => none
  | fuel + 1, read, c =>
    match c.rest with
    | '%' :: _ => do
      let (bytes, c) ← percentBytes (fuel + 1) c
      let decoded ← String.fromUTF8? ⟨bytes.toArray⟩
      tagText verbatim fuel (read ++ decoded.toList) c
    | x :: _ =>
      if isTagChar verbatim x then tagText verbatim fuel (read ++ [x]) (c.skip 1)
      else some (read, c)
    | [] => some (read, c)

/-- A tag handle: `!`, `!!`, or a name between exclamation marks, which may lack its second one. -/
def tagHandle (c : Cursor) : Option (Text × Cursor) :=
  if !c.seesChar 0 '!' then none
  else
    let name := (c.rest.drop 1).takeWhile isNameChar
    let c := c.skip (name.length + 1)
    if c.seesChar 0 '!' then some ('!' :: name ++ ['!'], c.skip 1) else some ('!' :: name, c)

/-- A tag as its handle and suffix. In flow collections a comma may follow it at once. -/
def tag (inFlow : Bool) (c : Cursor) : Option (Token × Cursor) := do
  let fuel := c.rest.length + 1
  let (found, c) ←
    if c.seesChar 1 '<' then do
      let (uri, c) ← tagText true fuel [] (c.skip 2)
      if uri.isEmpty || !c.seesChar 0 '>' then none else some (Token.tag [] uri, c.skip 1)
    else do
      let (handle, c) ← tagHandle c
      if 2 ≤ handle.length && handle.getLast? = some '!' then
        let (suffix, c) ← tagText false fuel [] c
        if suffix.isEmpty then none else some (.tag handle suffix, c)
      else
        let (suffix, c) ← tagText false fuel (handle.drop 1) c
        some (if suffix.isEmpty then .tag [] ['!'] else .tag ['!'] suffix, c)
  if c.blankOrEnd 0 || (inFlow && c.seesChar 0 ',') then some (found, c) else none

/-- An anchor or an alias. -/
def name (make : Text → Token) (c : Cursor) : Option (Token × Cursor) :=
  let c := c.skip 1
  let found := c.rest.takeWhile isNameChar
  let c := c.skip found.length
  if found.isEmpty then none
  else if c.blankOrEnd 0 || c.sees 0 ("?:,]\x7d%@`".toList.contains ·) then some (make found, c)
  else none

/-- One of the two numbers of a version. -/
def versionNumber (c : Cursor) : Option (Nat × Cursor) :=
  let digits := c.rest.takeWhile Char.isDigit
  if 9 < digits.length then none
  else (Text.toNat? 10 digits).map (·, c.skip digits.length)

/-- The version or the tag prefix that a directive declares. -/
def directive (c : Cursor) : Option (Token × Cursor) := do
  let c := c.skip 1
  let fuel := c.rest.length + 1
  let found := c.rest.takeWhile isNameChar
  let c := c.skip found.length
  if !c.blankOrEnd 0 then none
  else
    let c := c.skipWhile isSpaceOrTab
    let (token, c) ←
      if found = "YAML".toList then do
        let (major, c) ← versionNumber c
        if !c.seesChar 0 '.' then none
        else
          let (minor, c) ← versionNumber (c.skip 1)
          if major = 1 && (minor = 1 || minor = 2) then some (Token.version, c) else none
      else if found = "TAG".toList then do
        let (handle, c) ← tagHandle c
        if handle != ['!'] && handle.getLast? != some '!' || !c.sees 0 isSpaceOrTab then none
        else
          let (uri, c) ← tagText true fuel [] (c.skipWhile isSpaceOrTab)
          if uri.isEmpty || !c.blankOrEnd 0 then none else some (.tagDirective handle uri, c)
      else none
    let c := c.skipWhile isSpaceOrTab
    let c := if c.seesChar 0 '#' then c.skipToBreak else c
    if c.breakOrEnd 0 then some (token, c.skipBreak) else none

/-- Takes a token read from the cursor. -/
def took (r : Reader) (t : Token) (c : Cursor) : Reader := { r with cursor := c }.emit t

/-- A directive or a document marker: it ends all blocks. -/
def atMargin (r : Reader) : Option Reader :=
  (r.closeDeeper (-1)).dropCandidate.map (·.allowKey false)

def openFlow (r : Reader) (t : Token) : Option Reader :=
  r.markCandidate.map fun r =>
    ({ r with candidates := none :: r.candidates, flow := r.flow + 1 }.allowKey true).indicator 1 t

def closeFlow (r : Reader) (t : Token) : Option Reader :=
  r.dropCandidate.map fun r =>
    let r :=
      if r.inFlow then { r with candidates := r.candidates.drop 1, flow := r.flow - 1 } else r
    (r.allowKey false).indicator 1 t

/-- An entry of a block sequence. -/
def entry (r : Reader) : Option Reader :=
  if !r.inFlow && !r.keyAllowed then none
  else
    (r.openBlock r.column r.tokens.size .blockSequence).dropCandidate.map fun r =>
      (r.allowKey true).indicator 1 .blockEntry

/-- A key announced by a question mark. -/
def explicitKey (r : Reader) : Option Reader :=
  if !r.inFlow && !r.keyAllowed then none
  else
    (r.openBlock r.column r.tokens.size .blockMapping).dropCandidate.map fun r =>
      (r.allowKey (!r.inFlow)).indicator 1 .key

/-- A colon: the candidate becomes a key, or the value belongs to an announced key. -/
def colon (r : Reader) : Option Reader :=
  r.candidate.bind fun
    | some candidate =>
      let marked := { r with tokens := r.tokens.insertIdxIfInBounds candidate.position .key }
      let opened := marked.openBlock candidate.column candidate.position .blockMapping
      let closed := { opened with candidates := none :: opened.candidates.drop 1 }
      some ((closed.allowKey false).indicator 1 .value)
    | none =>
      if !r.inFlow && !r.keyAllowed then none
      else
        let opened := r.openBlock r.column r.tokens.size .blockMapping
        some ((opened.allowKey (!r.inFlow)).indicator 1 .value)

/-- Anchors, aliases, tags and scalars on one line may be keys. -/
def keyLike (r : Reader) (read : Cursor → Option (Token × Cursor)) : Option Reader := do
  let r ← r.markCandidate
  let (t, c) ← read r.cursor
  some ((r.allowKey false).took t c)

def blockScalar (r : Reader) (folded : Bool) : Option Reader := do
  let r ← r.dropCandidate
  let (t, c) ← Scalar.block folded r.indent (r.cursor.skip 1)
  some ((r.allowKey true).took (.scalar false t) c)

def quotedScalar (quote : Char) (c : Cursor) : Option (Token × Cursor) :=
  (Scalar.quoted quote (c.rest.length + 1) [] (c.skip 1)).map fun (t, c) => (.scalar false t, c)

def plainScalar (r : Reader) : Option Reader := do
  let r ← r.markCandidate
  let c := r.cursor
  let (t, broken, c) ← Scalar.plain r.inFlow (r.indent + 1) (c.rest.length + 1) [] .none c
  some ((r.allowKey broken).took (.scalar true t) c)

/-- Whether a plain scalar can start here. -/
def startsPlain (r : Reader) (x : Char) : Bool :=
  !(r.cursor.blankOrEnd 0 || "-?:,[]\x7b\x7d#&*!|>'\"%@`".toList.contains x) ||
    (x == '-' && !r.cursor.sees 1 isSpaceOrTab) ||
    (!r.inFlow && (x == '?' || x == ':') && !r.cursor.blankOrEnd 1)

/-- Reads the token at the cursor. -/
def token (r : Reader) (x : Char) : Option Reader :=
  let c := r.cursor
  let word := c.blankOrEnd 1
  if c.column = 0 && x = '%' then do
    let r ← r.atMargin
    let (t, c) ← directive r.cursor
    some (r.took t c)
  else if c.seesMarker '-' then r.atMargin.map (·.indicator 3 .documentStart)
  else if c.seesMarker '.' then r.atMargin.map (·.indicator 3 .documentEnd)
  else if x = '[' then r.openFlow .flowSequence
  else if x = '\x7b' then r.openFlow .flowMapping
  else if x = ']' then r.closeFlow .flowSequenceEnd
  else if x = '\x7d' then r.closeFlow .flowMappingEnd
  else if x = ',' then r.dropCandidate.map fun r => (r.allowKey true).indicator 1 .flowEntry
  else if x = '-' && word then r.entry
  else if x = '?' && (r.inFlow || word) then r.explicitKey
  else if x = ':' && (r.inFlow || word) then r.colon
  else if x = '*' then r.keyLike (name .alias)
  else if x = '&' then r.keyLike (name .anchor)
  else if x = '!' then r.keyLike (tag r.inFlow)
  else if x = '|' && !r.inFlow then r.blockScalar false
  else if x = '>' && !r.inFlow then r.blockScalar true
  else if x = '\'' || x = '"' then r.keyLike (quotedScalar x)
  else if r.startsPlain x then r.plainScalar
  else none

/-- Reads tokens up to the end of the text. -/
def run : Nat → Reader → Option (Array Token)
  | 0, _ => none
  | fuel + 1, r =>
    let r := toNext (r.cursor.rest.length + 1) r
    let r := r.closeDeeper r.column
    match r.cursor.rest with
    | [] => (r.atMargin).map fun r => (r.emit .streamEnd).tokens
    | x :: _ => (r.token x).bind (run fuel)

end Reader

/-- The characters that may stand in a YAML text. -/
def isAllowed (c : Char) : Bool :=
  let n := c.toNat
  n == 9 || n == 10 || n == 13 || (0x20 ≤ n && n ≤ 0x7E) || n == 0x85 || (0xA0 ≤ n && n ≤ 0xFFFD) ||
    0x10000 ≤ n

def tokens? (t : Text) : Option (List Token) :=
  if !t.all isAllowed then none
  else (Reader.run (t.length + 2) (Reader.start t)).map Array.toList

end Stencil.Yaml
