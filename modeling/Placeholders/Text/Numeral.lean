import Placeholders.Text

/-!
Decimal numerals in ASCII digits: their values, reading with an optional sign, and writing.
-/

namespace Placeholders

def isDigit (c : Char) : Bool := '0' ≤ c && c ≤ '9'

namespace Numeral

/-- The value of a text of digits. -/
def value (digits : Text) : Nat :=
  digits.foldl (fun n c => 10 * n + (c.toNat - '0'.toNat)) 0

def digits? (t : Text) : Option Nat :=
  if t ≠ [] ∧ t.all isDigit then some (value t) else none

/-- Digits after at most a plus sign. -/
def natural? : Text → Option Nat
  | '+' :: t => digits? t
  | t => digits? t

/-- Digits after at most one sign. -/
def integer? : Text → Option Int
  | '+' :: t => (digits? t).map Int.ofNat
  | '-' :: t => (digits? t).map fun n => -Int.ofNat n
  | t => (digits? t).map Int.ofNat

def word64? (t : Text) : Option UInt64 :=
  (natural? t).bind fun n => if n < UInt64.size then some (.ofNat n) else none

def signed64? (t : Text) : Option Int64 :=
  (integer? t).bind fun n =>
    if Int64.minValue.toInt ≤ n ∧ n ≤ Int64.maxValue.toInt then some (.ofInt n) else none

def ofNat (n : Nat) : Text := Nat.toDigits 10 n

def ofInt (n : Int) : Text :=
  if n < 0 then '-' :: ofNat n.natAbs else ofNat n.natAbs

/-- At least `width` digits, with zeros in front. -/
def padded (width n : Nat) : Text := (ofNat n).padLeft width '0'

end Numeral
end Placeholders
