import Placeholders.Text.Blank
import Placeholders.Text.Numeral

/-!
A placeholder as it stands in a text: `{{name[indexes](arguments)}(entropy)}`. Every part is kept
as written, so that the text of a placeholder is a function of it.
-/

namespace Placeholders

/-- `(true)`, `(false)` or one of them followed by a number, as in `(true, 7)`. -/
structure EntropyClause where
  mixesIdentity : Bool
  /-- The blanks after the comma and the digits. -/
  extra : Option (Text × Text)
deriving Repr, DecidableEq

structure Placeholder where
  name : Text
  /-- The elements between the brackets, if there are brackets. -/
  indexes : Option (List Text)
  arguments : Text
  entropy : Option EntropyClause
deriving Repr, DecidableEq

def isNameChar (c : Char) : Bool :=
  ('A' ≤ c && c ≤ 'Z') || ('a' ≤ c && c ≤ 'z') || isDigit c || c = '_' || c = '.'

namespace EntropyClause

def flag (mixesIdentity : Bool) : Text :=
  if mixesIdentity then ['t', 'r', 'u', 'e'] else ['f', 'a', 'l', 's', 'e']

def written (e : EntropyClause) : Text :=
  '(' :: flag e.mixesIdentity ++
    (match e.extra with
      | none => []
      | some (blanks, digits) => ',' :: blanks ++ digits) ++ [')']

end EntropyClause

namespace Placeholder

def writtenIndexes : Option (List Text) → Text
  | none => []
  | some elements => '[' :: Text.join [','] elements ++ [']']

def writtenEntropy : Option EntropyClause → Text
  | none => []
  | some e => e.written

def written (p : Placeholder) : Text :=
  '{' :: '{' :: p.name ++ writtenIndexes p.indexes ++ '(' :: p.arguments ++ ')' :: '}' ::
    writtenEntropy p.entropy ++ ['}']

end Placeholder
end Placeholders
