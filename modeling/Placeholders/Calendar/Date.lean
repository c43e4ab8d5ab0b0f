import Placeholders.Text.Numeral

/-!
Dates of the Gregorian calendar, extended to all years of the supported range, and their numbers in
the sequence of days. Day 0 is the first of January of the year 1. A date is moved by a duration,
which has a bound of its own.
-/

namespace Placeholders

structure Date where
  year : Int
  month : Nat
  day : Nat
deriving Repr, DecidableEq

def isLeapYear (year : Int) : Bool :=
  year % 4 = 0 && (year % 100 ≠ 0 || year % 400 = 0)

def monthLengths (year : Int) : List Nat :=
  [31, if isLeapYear year then 29 else 28, 31, 30, 31, 30, 31, 31, 30, 31, 30, 31]

/-- The number of the first day of a year. -/
def daysBeforeYear (year : Int) : Int :=
  365 * (year - 1) + (year - 1) / 4 - (year - 1) / 100 + (year - 1) / 400

/-- The year of a day. The mean length of a year finds it or the year after it. -/
def yearOfDay (n : Int) : Int :=
  let year := (400 * n + 591) / 146097 + 1
  if n < daysBeforeYear year then year - 1 else year

namespace Date

def firstYear : Int := -262143

def lastYear : Int := 262142

/-- A date that the calendar has. -/
def IsValid (d : Date) : Prop :=
  firstYear ≤ d.year ∧ d.year ≤ lastYear ∧ 1 ≤ d.month ∧ d.month ≤ 12 ∧ 1 ≤ d.day ∧
    d.day ≤ (monthLengths d.year).getD (d.month - 1) 0

instance (d : Date) : Decidable d.IsValid := inferInstanceAs (Decidable (_ ∧ _))

/-- The days of the year before the month of a date. -/
def daysBeforeMonth (d : Date) : Nat :=
  ((monthLengths d.year).take (d.month - 1)).foldl (· + ·) 0

def toDays (d : Date) : Int := daysBeforeYear d.year + daysBeforeMonth d + (d.day - 1 : Int)

/-- Month and day of the month of the day with number `n` in the months of these lengths. -/
def monthAndDay (month : Nat) : List Nat → Nat → Nat × Nat
  | [], n => (month, n + 1)
  | length :: lengths, n =>
    if n < length then (month, n + 1) else monthAndDay (month + 1) lengths (n - length)

def ofDays (n : Int) : Date :=
  let year := yearOfDay n
  let (month, day) := monthAndDay 1 (monthLengths year) (n - daysBeforeYear year).toNat
  ⟨year, month, day⟩

/-- The days of a duration whose milliseconds are a signed word of 64 bits. -/
def longestDuration : Nat := (Nat.pow 2 63 - 1) / (24 * 60 * 60 * 1000)

end Date

/-- A duration of whole days, forwards or backwards. -/
structure Duration where
  days : Int
  natAbs_le : days.natAbs ≤ Date.longestDuration
deriving Repr, DecidableEq

def Duration.ofDays? (days : Int) : Option Duration :=
  if h : days.natAbs ≤ Date.longestDuration then some ⟨days, h⟩ else none

namespace Date

/-- The date a duration later or earlier, if the calendar has it. -/
def add? (d : Date) (duration : Duration) : Option Date :=
  let shifted := ofDays (d.toDays + duration.days)
  if firstYear ≤ shifted.year ∧ shifted.year ≤ lastYear then some shifted else none

/-- Four digits, and a sign where four digits do not do. -/
def writeYear (year : Int) : Text :=
  if 0 ≤ year ∧ year ≤ 9999 then Numeral.padded 4 year.natAbs
  else (if year < 0 then '-' else '+') :: Numeral.padded 4 year.natAbs

end Date
end Placeholders
