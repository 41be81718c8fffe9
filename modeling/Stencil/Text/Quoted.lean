import Stencil.Text
import Stencil.Text.Printable

/-! Texts between double quotes, with every character that would not be seen escaped. -/

namespace Stencil.Text

/-- An unseen character without an escape of its own is named by its code point. -/
def shown (c : Char) : Text :=
  if c = '\x00' then ['\\', '0']
  else if c = '\t' then ['\\', 't']
  else if c = '\n' then ['\\', 'n']
  else if c = '\r' then ['\\', 'r']
  else if c = '"' then ['\\', '"']
  else if c = '\\' then ['\\', '\\']
  else if isPrintable c then [c]
  else "\\u\x7b".toList ++ Nat.toDigits 16 c.toNat ++ ['\x7d']

def quoted (t : Text) : Text := '"' :: t.flatMap shown ++ ['"']

end Stencil.Text
