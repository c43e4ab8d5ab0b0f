import Placeholders.Text.Numeral
import Placeholders.Text.Unprintable

/-!
Quoted text and lists as error messages show them.
-/

namespace Placeholders

def escapeChar (c : Char) : Text :=
  if c = '\x00' then ['\\', '0']
  else if c = '\t' then ['\\', 't']
  else if c = '\n' then ['\\', 'n']
  else if c = '\r' then ['\\', 'r']
  else if c = '"' then ['\\', '"']
  else if c = '\\' then ['\\', '\\']
  else if isUnprintable c then ['\\', 'u', '{'] ++ Nat.toDigits 16 c.toNat ++ ['}']
  else [c]

namespace Text

def quoted (t : Text) : Text := '"' :: t.flatMap escapeChar ++ ['"']

/-- Items in brackets, with commas between them. -/
def bracketed (items : List Text) : Text := '[' :: join [',', ' '] items ++ [']']

end Text
end Placeholders
