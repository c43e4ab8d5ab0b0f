import Placeholders.Calendar.Instant
import Placeholders.Text.Blank

/-!
Reading an instant written as `YYYY-MM-DDThh:mm:ss`. Numbers may have fewer digits than their field
and blanks before them, and a year with a sign may have more.
-/

namespace Placeholders

inductive TimeError where
  | invalidCharacter
  | prematureEnd
  | trailingText
  | outOfRange
deriving Repr, DecidableEq

def TimeError.message : TimeError → Text
  | invalidCharacter => "input contains invalid characters".toList
  | prematureEnd => "premature end of input".toList
  | trailingText => "trailing input".toList
  | outOfRange => "input is out of range".toList

namespace Calendar

/-- At least one digit and at most `width`. -/
def readDigits (width : Nat) (t : Text) : Except TimeError (Nat × Text) :=
  let digits := (t.take width).takeWhile isDigit
  if digits ≠ [] then .ok (Numeral.value digits, t.drop digits.length)
  else if t = [] then .error .prematureEnd
  else .error .invalidCharacter

/-- A year is a signed word of 32 bits. -/
def readYear (t : Text) : Except TimeError (Int × Text) := do
  let (year, rest) ← match t.trimStart with
    | '-' :: t => (readDigits t.length t).map fun (n, rest) => (-(n : Int), rest)
    | '+' :: t => (readDigits t.length t).map fun (n, rest) => ((n : Int), rest)
    | t => (readDigits 4 t).map fun (n, rest) => ((n : Int), rest)
  if Int32.minValue.toInt ≤ year ∧ year ≤ Int32.maxValue.toInt then .ok (year, rest)
  else .error .outOfRange

/-- A number of at most two digits between bounds. -/
def readBetween (low high : Nat) (t : Text) : Except TimeError (Nat × Text) := do
  let (n, rest) ← readDigits 2 t.trimStart
  if low ≤ n ∧ n ≤ high then .ok (n, rest) else .error .outOfRange

def readMark (mark : Char) : Text → Except TimeError Text
  | [] => .error .prematureEnd
  | c :: t => if c = mark then .ok t else .error .invalidCharacter

end Calendar

open Calendar in
def Instant.read (t : Text) : Except TimeError Instant := do
  let (year, t) ← readYear t
  let (month, t) ← readMark '-' t >>= readBetween 1 12
  let (day, t) ← readMark '-' t >>= readBetween 1 31
  let (hour, t) ← readMark 'T' t >>= readBetween 0 23
  let (minute, t) ← readMark ':' t >>= readBetween 0 59
  let (second, t) ← readMark ':' t >>= readBetween 0 60
  if t ≠ [] then .error .trailingText
  else
    let date : Date := ⟨year, month, day⟩
    if ¬date.IsValid then .error .outOfRange
    else if second = 60 then .ok ⟨date, hour, minute, 59, 1000000000⟩
    else .ok ⟨date, hour, minute, second, 0⟩

end Placeholders
