import Stencil.Data.Json.Number

/-! Reading JSON text strictly: no comments, no trailing commas, no bare control characters. -/

namespace Stencil.Json

def skipSpace (t : Text) : Text :=
  t.dropWhile fun c => c == ' ' || c == '\t' || c == '\n' || c == '\r'

/-- Four hexadecimal digits. -/
def hexUnit : Text → Option (Nat × Text)
  | a :: b :: c :: d :: rest => (Text.toNat? 16 [a, b, c, d]).map (·, rest)
  | _ => none

/-- The character of an escape after its backslash. Characters beyond the first plane take two
units, the surrogates; a surrogate alone is no character. -/
def escape : Text → Option (Char × Text)
  | '"' :: rest => some ('"', rest)
  | '\\' :: rest => some ('\\', rest)
  | '/' :: rest => some ('/', rest)
  | 'b' :: rest => some ('\x08', rest)
  | 'f' :: rest => some ('\x0c', rest)
  | 'n' :: rest => some ('\n', rest)
  | 'r' :: rest => some ('\r', rest)
  | 't' :: rest => some ('\t', rest)
  | 'u' :: rest =>
    (hexUnit rest).bind fun (unit, rest) =>
      if unit < 0xD800 || 0xE000 ≤ unit then some (Char.ofNat unit, rest)
      else if 0xDC00 ≤ unit then none
      else
        match rest with
        | '\\' :: 'u' :: rest =>
          (hexUnit rest).bind fun (low, rest) =>
            if 0xDC00 ≤ low && low < 0xE000 then
              some (Char.ofNat (0x10000 + (unit - 0xD800) * 0x400 + (low - 0xDC00)), rest)
            else none
        | _ => none
  | _ => none

/-- The string after its opening quote; the characters read so far come last first. -/
def stringBody : Nat → Text → Text → Option (Text × Text)
  | 0, _, _ => none
  | fuel + 1, read, t =>
    match t with
    | [] => none
    | '"' :: rest => some (read.reverse, rest)
    | '\\' :: rest => (escape rest).bind fun (c, rest) => stringBody fuel (c :: read) rest
    | c :: rest => if c.toNat < 0x20 then none else stringBody fuel (c :: read) rest

mutual

/-- A value at the start of a text. `depth` bounds the nesting of arrays and objects, and `fuel`
the characters to be read. -/
def value : Nat → Nat → Text → Option (Json × Text)
  | 0, _, _ => none
  | fuel + 1, depth, t =>
    match skipSpace t with
    | 'n' :: 'u' :: 'l' :: 'l' :: rest => some (null, rest)
    | 't' :: 'r' :: 'u' :: 'e' :: rest => some (bool true, rest)
    | 'f' :: 'a' :: 'l' :: 's' :: 'e' :: rest => some (bool false, rest)
    | '"' :: rest => (stringBody fuel [] rest).map fun (s, rest) => (string s, rest)
    | '[' :: rest =>
      match depth with
      | 0 => none
      | depth + 1 =>
        match skipSpace rest with
        | ']' :: rest => some (array [], rest)
        | rest => (items fuel depth [] rest).map fun (found, rest) => (array found, rest)
    | '\x7b' :: rest =>
      match depth with
      | 0 => none
      | depth + 1 =>
        match skipSpace rest with
        | '\x7d' :: rest => some (object [], rest)
        | rest => (entries fuel depth [] rest).map fun (found, rest) => (ofEntries found, rest)
    | rest => (Number.read rest).map fun (n, rest) => (number n, rest)

/-- The items of an array from a value on, up to the closing bracket. -/
def items : Nat → Nat → List Json → Text → Option (List Json × Text)
  | 0, _, _, _ => none
  | fuel + 1, depth, found, t =>
    (value fuel depth t).bind fun (item, rest) =>
      match skipSpace rest with
      | ',' :: rest => items fuel depth (item :: found) rest
      | ']' :: rest => some ((item :: found).reverse, rest)
      | _ => none

/-- The entries of an object from a key on, up to the closing brace. -/
def entries : Nat → Nat → List (Text × Json) → Text → Option (List (Text × Json) × Text)
  | 0, _, _, _ => none
  | fuel + 1, depth, found, t =>
    match skipSpace t with
    | '"' :: rest =>
      (stringBody fuel [] rest).bind fun (key, rest) =>
        match skipSpace rest with
        | ':' :: rest =>
          (value fuel depth rest).bind fun (item, rest) =>
            match skipSpace rest with
            | ',' :: rest => entries fuel depth ((key, item) :: found) rest
            | '\x7d' :: rest => some (((key, item) :: found).reverse, rest)
            | _ => none
        | _ => none
    | _ => none

end

/-- Reads a whole text as one value, nested at most 127 deep. -/
def read (t : Text) : Option Json :=
  match value (t.length + 1) 127 t with
  | some (v, rest) => if (skipSpace rest).isEmpty then some v else none
  | none => none

end Stencil.Json
