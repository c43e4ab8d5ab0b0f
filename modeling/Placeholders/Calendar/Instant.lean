import Placeholders.Calendar.Date

/-!
Instants of local time and their written forms. A leap second is the last second of its minute
with more than a full second of nanoseconds.
-/

namespace Placeholders

structure Instant where
  date : Date
  hour : Nat
  minute : Nat
  second : Nat
  nanosecond : Nat := 0
deriving Repr, DecidableEq

/-- The parts of a written date or time. -/
inductive TimeField where
  | year
  | shortYear
  | month
  | day
  | hour
  | minute
  | second
  | mark (c : Char)
deriving Repr, DecidableEq

namespace Instant

def isLeapSecond (i : Instant) : Bool := 1000000000 ≤ i.nanosecond

def writeField (i : Instant) : TimeField → Text
  | .year => Date.writeYear i.date.year
  | .shortYear => Numeral.padded 2 (i.date.year % 100).toNat
  | .month => Numeral.padded 2 i.date.month
  | .day => Numeral.padded 2 i.date.day
  | .hour => Numeral.padded 2 i.hour
  | .minute => Numeral.padded 2 i.minute
  | .second => Numeral.padded 2 (if i.isLeapSecond then i.second + 1 else i.second)
  | .mark c => [c]

def write (i : Instant) (fields : List TimeField) : Text := fields.flatMap i.writeField

/-- Some seconds later or earlier. A leap second does not count in what follows it. -/
def addSeconds (i : Instant) (offset : Int) : Instant :=
  if offset = 0 then i
  else
    let second := if i.isLeapSecond ∧ offset < 0 then i.second + 1 else i.second
    let total : Int := i.date.toDays * 86400 + i.hour * 3600 + i.minute * 60 + second + offset
    let time := (total % 86400).toNat
    ⟨Date.ofDays (total / 86400), time / 3600, time / 60 % 60, time % 60,
      i.nanosecond % 1000000000⟩

end Instant

namespace TimeField

/-- Year, month and day with hyphens. -/
def isoDate : List TimeField := [.year, .mark '-', .month, .mark '-', .day]

def isoTime : List TimeField := [.hour, .mark ':', .minute, .mark ':', .second]

end TimeField
end Placeholders
