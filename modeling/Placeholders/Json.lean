import Placeholders.Text.Numeral

/-!
The JSON values that commands answer with, written on one line or with an indentation of two spaces.
-/

namespace Placeholders

inductive Json where
  | string (t : Text)
  | number (n : Int)
  | bool (b : Bool)
  | array (items : List Json)
  | object (fields : List (Text × Json))

namespace Json

/-- Two hexadecimal digits of a control character. -/
def hexByte (n : Nat) : Text := Text.padLeft 2 '0' (Nat.toDigits 16 n)

def escapeChar (c : Char) : Text :=
  if c = '"' then ['\\', '"']
  else if c = '\\' then ['\\', '\\']
  else if c = '\x08' then ['\\', 'b']
  else if c = '\x0c' then ['\\', 'f']
  else if c = '\n' then ['\\', 'n']
  else if c = '\r' then ['\\', 'r']
  else if c = '\t' then ['\\', 't']
  else if c.toNat < 0x20 then ['\\', 'u', '0', '0'] ++ hexByte c.toNat
  else [c]

def writeString (t : Text) : Text := '"' :: t.flatMap escapeChar ++ ['"']

def ofNat (n : Nat) : Json := number n

def ofList (items : List Text) : Json := array (items.map string)

mutual

def compact : Json → Text
  | string t => writeString t
  | number n => Numeral.ofInt n
  | bool b => if b then "true".toList else "false".toList
  | array items => '[' :: Text.join [','] (compactItems items) ++ [']']
  | object fields => '{' :: Text.join [','] (compactFields fields) ++ ['}']

def compactItems : List Json → List Text
  | [] => []
  | item :: items => compact item :: compactItems items

def compactFields : List (Text × Json) → List Text
  | [] => []
  | (name, value) :: fields =>
    (writeString name ++ ':' :: compact value) :: compactFields fields

end

/-- Lines between brackets, one item a line; nothing stands between the brackets of no items. -/
def block (indent : Nat) (left right : Char) (items : List Text) : Text :=
  if items = [] then [left, right]
  else
    let lineBreak := fun n => '\n' :: List.replicate n ' '
    left :: lineBreak (indent + 2) ++ Text.join (',' :: lineBreak (indent + 2)) items ++
      lineBreak indent ++ [right]

mutual

def prettyAt (indent : Nat) : Json → Text
  | string t => writeString t
  | number n => Numeral.ofInt n
  | bool b => if b then "true".toList else "false".toList
  | array items => block indent '[' ']' (prettyItems (indent + 2) items)
  | object fields => block indent '{' '}' (prettyFields (indent + 2) fields)

def prettyItems (indent : Nat) : List Json → List Text
  | [] => []
  | item :: items => prettyAt indent item :: prettyItems indent items

def prettyFields (indent : Nat) : List (Text × Json) → List Text
  | [] => []
  | (name, value) :: fields =>
    (writeString name ++ ':' :: ' ' :: prettyAt indent value) :: prettyFields indent fields

end

def pretty (j : Json) : Text := prettyAt 0 j

end Json
end Placeholders
