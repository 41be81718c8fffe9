import Stencil.Number.Decimal

/-! JSON values and their compact text. An object holds each key once, in the order of the keys. -/

namespace Stencil

inductive JsonNumber where
  | whole (i : Int)
  | float (x : Binary64)
  deriving DecidableEq, Inhabited

inductive Json where
  | null
  | bool (b : Bool)
  | number (n : JsonNumber)
  | string (t : Text)
  | array (items : List Json)
  | object (entries : List (Text × Json))
  deriving Inhabited

namespace Json

/-- Puts an entry at its place; an entry with the same key is replaced. -/
def insert {α : Type} (key : Text) (value : α) : List (Text × α) → List (Text × α)
  | [] => [(key, value)]
  | (k, v) :: rest =>
    if k = key then (key, value) :: rest
    else if Text.before key k then (key, value) :: (k, v) :: rest
    else (k, v) :: insert key value rest

/-- An object from entries in any order; of two entries with one key the later counts. -/
def ofEntries (entries : List (Text × Json)) : Json :=
  object (entries.foldl (fun sorted (key, value) => insert key value sorted) [])

/-- The number if it is finite, else null. -/
def ofFloat (x : Binary64) : Json := if x.isFinite then number (.float x) else null

def escapeChar (c : Char) : Text :=
  if c = '"' then ['\\', '"']
  else if c = '\\' then ['\\', '\\']
  else if c.toNat < 0x20 then
    if c = '\x08' then ['\\', 'b']
    else if c = '\t' then ['\\', 't']
    else if c = '\n' then ['\\', 'n']
    else if c = '\x0c' then ['\\', 'f']
    else if c = '\r' then ['\\', 'r']
    else "\\u00".toList ++ [Nat.digitChar (c.toNat / 16), Nat.digitChar (c.toNat % 16)]
  else [c]

def quoted (t : Text) : Text := '"' :: t.flatMap escapeChar ++ ['"']

/-- Floats show that they are floats: by a fraction, or by an exponent when they are very large or
very small. -/
def floatLayout : FloatLayout := ⟨.even, true, fun e => -5 ≤ e && e ≤ 15⟩

def writeFloat (x : Binary64) : Text := if x.isFinite then floatLayout.write x else "null"

mutual

/-- The text of a value without white space. -/
def write : Json → Text
  | null => "null"
  | bool b => if b then "true" else "false"
  | number (.whole i) => Text.ofInt i
  | number (.float x) => writeFloat x
  | string t => quoted t
  | array items => '[' :: Text.joined [','] (writeItems items) ++ [']']
  | object entries => '\x7b' :: Text.joined [','] (writeEntries entries) ++ ['\x7d']

def writeItems : List Json → List Text
  | [] => []
  | item :: items => write item :: writeItems items

def writeEntries : List (Text × Json) → List Text
  | [] => []
  | (key, value) :: entries => (quoted key ++ ':' :: write value) :: writeEntries entries

end

end Json

end Stencil
