import Stencil.Data.Toml
import Stencil.Data.Toml.Datetime

/-! The strings, numbers and other single values of TOML. -/

namespace Stencil.Toml.Scalar

/-- Characters that may stand for themselves in strings and comments. -/
def isPlain (c : Char) : Bool := c == '\t' || (0x20 ≤ c.toNat && c.toNat != 0x7F)

/-- The character with the code point written in `count` hexadecimal digits. -/
def codePoint (count : Nat) (t : Text) : Option (Char × Text) := do
  if t.length < count then none
  else
    let n ← Text.toNat? 16 (t.take count)
    if n < 0xD800 || (0xE000 ≤ n && n < 0x110000) then some (Char.ofNat n, t.drop count) else none

/-- The character of an escape after its backslash. -/
def escape : Text → Option (Char × Text)
  | 'b' :: rest => some ('\x08', rest)
  | 't' :: rest => some ('\t', rest)
  | 'n' :: rest => some ('\n', rest)
  | 'f' :: rest => some ('\x0c', rest)
  | 'r' :: rest => some ('\r', rest)
  | 'e' :: rest => some ('\x1b', rest)
  | '"' :: rest => some ('"', rest)
  | '\\' :: rest => some ('\\', rest)
  | 'x' :: rest => codePoint 2 rest
  | 'u' :: rest => codePoint 4 rest
  | 'U' :: rest => codePoint 8 rest
  | _ => none

/-- A string in double quotes after its opening quote. -/
def basic : Nat → Text → Text → Option (Text × Text)
  | 0, _, _ => none
  | fuel + 1, read, t =>
    match t with
    | '"' :: rest => some (read.reverse, rest)
    | '\\' :: rest => (escape rest).bind fun (c, rest) => basic fuel (c :: read) rest
    | c :: rest => if isPlain c then basic fuel (c :: read) rest else none
    | [] => none

/-- A string in single quotes after its opening quote. -/
def literal (t : Text) : Option (Text × Text) :=
  match Text.cut '\'' t with
  | some (inside, rest) => if inside.all isPlain then some (inside, rest) else none
  | none => none

def isSpace (c : Char) : Bool := c == ' ' || c == '\t'

def skipSpaces (t : Text) : Text := t.dropWhile isSpace

/-- The text after a line break at its start. -/
def newline? : Text → Option Text
  | '\n' :: rest => some rest
  | '\r' :: '\n' :: rest => some rest
  | _ => none

/-- Skips spaces and line breaks. -/
def skipBlank : Text → Text
  | '\r' :: '\n' :: rest => skipBlank rest
  | c :: rest => if isSpace c || c == '\n' then skipBlank rest else c :: rest
  | [] => []

/-- What follows a backslash at the end of a line, from the next visible character on. -/
def continuation (t : Text) : Option Text := (newline? (skipSpaces t)).map skipBlank

/-- The end of a string in three quotes: one or two more quotes before them belong to the string. -/
def closing? (quote : Char) : Text → Option (Text × Text)
  | a :: b :: c :: rest =>
    if a = quote && b = quote && c = quote then
      match rest with
      | d :: e :: rest =>
        if d = quote && e = quote then some ([quote, quote], rest)
        else if d = quote then some ([quote], e :: rest)
        else some ([], d :: e :: rest)
      | [d] => if d = quote then some ([quote], []) else some ([], [d])
      | [] => some ([], [])
    else none
  | _ => none

/-- A string over several lines after its opening quotes; a literal one has no escapes. -/
def multiline (quote : Char) (escapes : Bool) : Nat → Text → Text → Option (Text × Text)
  | 0, _, _ => none
  | fuel + 1, read, t =>
    match closing? quote t with
    | some (more, rest) => some (read.reverse ++ more, rest)
    | none =>
      match t with
      | '\r' :: '\n' :: rest => multiline quote escapes fuel ('\n' :: '\r' :: read) rest
      | '\n' :: rest => multiline quote escapes fuel ('\n' :: read) rest
      | '\\' :: rest =>
        if escapes then
          match continuation rest with
          | some rest => multiline quote escapes fuel read rest
          | none =>
            (escape rest).bind fun (c, rest) => multiline quote escapes fuel (c :: read) rest
        else multiline quote escapes fuel ('\\' :: read) rest
      | c :: rest => if isPlain c then multiline quote escapes fuel (c :: read) rest else none
      | [] => none

/-- The string at the start of a text, if it starts with a quote. -/
def string? (t : Text) : Option (Option (Text × Text)) :=
  let fuel := t.length + 1
  let opened (rest : Text) := (newline? rest).getD rest
  match t with
  | '"' :: '"' :: '"' :: rest => some (multiline '"' true fuel [] (opened rest))
  | '\'' :: '\'' :: '\'' :: rest => some (multiline '\'' false fuel [] (opened rest))
  | '"' :: rest => some (basic fuel [] rest)
  | '\'' :: rest => some (literal rest)
  | _ => none

/-- Digits that may have single underscores between them, without the underscores. -/
def digits (base : Nat) (t : Text) : Option Text :=
  let groups := t.splitOn '_'
  if groups.all fun g => (Text.toNat? base g).isSome then some groups.flatten else none

/-- Decimal digits without a leading zero. -/
def decimal (t : Text) : Option Text :=
  match digits 10 t with
  | some ('0' :: _ :: _) => none
  | found => found

def signed (t : Text) : Bool × Text :=
  match t with
  | '-' :: rest => (true, rest)
  | '+' :: rest => (false, rest)
  | rest => (false, rest)

def integer (t : Text) : Option Int :=
  let based (base : Nat) (rest : Text) : Option Int := do
    let n ← Text.toNat? base (← digits base rest)
    some n
  match t with
  | '0' :: 'x' :: rest => based 16 rest
  | '0' :: 'o' :: rest => based 8 rest
  | '0' :: 'b' :: rest => based 2 rest
  | t => do
    let (negative, rest) := signed t
    let n ← Text.toNat? 10 (← decimal rest)
    some (if negative then -n else n)

/-- The exponent of a float after its letter. -/
def exponent (t : Text) : Option Int := do
  let (negative, rest) := signed t
  let n ← Text.toNat? 10 (← digits 10 rest)
  some (if negative then -n else n)

/-- The whole digits, the digits after the point, and the exponent of a float. -/
def floatParts (t : Text) : Option (Text × Text × Int) := do
  let letter (c : Char) : Bool := c == 'e' || c == 'E'
  let mantissa := t.takeWhile (!letter ·)
  let power ← match t.dropWhile (!letter ·) with
    | [] => some 0
    | _ :: rest => exponent rest
  match Text.cut '.' mantissa with
  | some (whole, fraction) => some (← decimal whole, ← digits 10 fraction, power)
  | none => some (← decimal mantissa, [], power)

/-- A float is finite unless it is written as an infinity. -/
def float (t : Text) : Option Binary64 :=
  let (negative, rest) := signed t
  if rest = "inf".toList then some (.infinity negative)
  else if rest = "nan".toList then some (if negative then Binary64.nan.neg else .nan)
  else do
    let (whole, fraction, power) ← floatParts rest
    let coefficient ← Text.toNat? 10 (whole ++ fraction)
    let x := Decimal.toBinary64 negative ⟨coefficient, power - fraction.length⟩
    if x.isInfinite then none else some x

/-- A value written without quotes or brackets. -/
def word (t : Text) : Option Toml :=
  if t = "true".toList then some (.boolean true)
  else if t = "false".toList then some (.boolean false)
  else match Datetime.read t with
    | some d => some (.datetime d)
    | none => match integer t with
      | some i => some (.integer i)
      | none => (float t).map .float

def isWordChar (c : Char) : Bool :=
  c.isAlphanum || c == '+' || c == '-' || c == '_' || c == '.' || c == ':'

/-- The word at the start of a text. A date and a time may be one word with a space inside. -/
def word? (t : Text) : Option (Toml × Text) :=
  let first := t.takeWhile isWordChar
  match Datetime.date first, t.dropWhile isWordChar with
  | some (_, []), ' ' :: rest =>
    if rest.head?.any Char.isDigit then
      (word (first ++ ' ' :: rest.takeWhile isWordChar)).map (·, rest.dropWhile isWordChar)
    else (word first).map (·, ' ' :: rest)
  | _, rest => (word first).map (·, rest)

end Stencil.Toml.Scalar
