import Stencil.Text.Blank

/-! Texts as lists of characters, with the few cuts and trims the rest of the library is built on. -/

namespace Stencil

abbrev Text := List Char

instance : Coe String Text := ⟨String.toList⟩

namespace Text

def trimStart (t : Text) : Text := t.dropWhile isBlank

def trimEnd (t : Text) : Text := (t.reverse.dropWhile isBlank).reverse

def trim (t : Text) : Text := trimEnd (trimStart t)

/-- Empty texts are blank too. -/
def allBlank (t : Text) : Bool := t.all isBlank

/-- The text before and the text after the first `mark`, if there is one. -/
def cut (mark : Char) : Text → Option (Text × Text)
  | [] => none
  | c :: rest =>
    if c = mark then some ([], rest)
    else (cut mark rest).map fun (before, after) => (c :: before, after)

/-- The words between runs of blanks. -/
def words (t : Text) : List Text := (t.splitOnP isBlank).filter (!·.isEmpty)

/-- One text with `mark` between the parts. -/
def joined (mark : Text) (parts : List Text) : Text := mark.intercalate parts

/-- The text between backticks. -/
def ticked (t : Text) : Text := '\x60' :: t ++ ['\x60']

def spaces (n : Nat) : Text := List.replicate n ' '

def ofNat (n : Nat) : Text := Nat.toDigits 10 n

def ofInt (i : Int) : Text := if i < 0 then '-' :: ofNat i.natAbs else ofNat i.natAbs

/-- At least two digits. -/
def pad (n : Nat) : Text := if n < 10 then '0' :: ofNat n else ofNat n

/-- The value of a digit in the bases up to sixteen. -/
def digit? (c : Char) : Option Nat :=
  if '0' ≤ c ∧ c ≤ '9' then some (c.toNat - '0'.toNat)
  else if 'a' ≤ c ∧ c ≤ 'f' then some (c.toNat - 'a'.toNat + 10)
  else if 'A' ≤ c ∧ c ≤ 'F' then some (c.toNat - 'A'.toNat + 10)
  else none

/-- Reads a non-empty run of digits of the given base, which is at most sixteen. -/
def toNat? (base : Nat) (t : Text) : Option Nat :=
  if t.isEmpty then none
  else t.foldlM (fun n c => do
    let d ← digit? c
    if d < base then some (n * base + d) else none) 0

/-- Order by code points, which is also the order of the UTF-8 bytes. -/
def before : Text → Text → Bool
  | _, [] => false
  | [], _ :: _ => true
  | a :: as, b :: bs => a < b || (a == b && before as bs)

/-- Lower case of the ASCII letters; other characters stay. -/
def lowerAscii (t : Text) : Text := t.map Char.toLower

end Text

end Stencil
