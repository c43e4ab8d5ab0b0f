import Placeholders.Binary64
import Placeholders.Text.Numeral

/-!
The shortest decimal that reads back as a given number. The real numbers that round to a number
form an interval, with its ends if the significand is even. Of the multiples of powers of ten in
it, the greatest power of ten counts, and of its multiples the nearest to the number.
-/

namespace Placeholders

/-- The number `coefficient * 10 ^ exponent`. -/
structure Decimal where
  coefficient : Nat
  exponent : Int
deriving Repr, DecidableEq

namespace Decimal

/-- Digits without an exponent, and with a point only before a fraction. -/
def positional (d : Decimal) : Text :=
  if 0 ≤ d.exponent then Numeral.ofNat (d.coefficient * Nat.pow 10 d.exponent.toNat)
  else
    let places := (-d.exponent).toNat
    let unit := Nat.pow 10 places
    Numeral.ofNat (d.coefficient / unit) ++ '.' :: Numeral.padded places (d.coefficient % unit)

end Decimal

namespace Binary64

/-- A number in quarters of `10 ^ -1074`, the scale in which numbers, the middles between them and
the decimals in question are all whole. -/
def quarters (n : Nat) : Nat := 4 * n * Nat.pow 5 1074

/-- The interval that rounds to `n` quanta, for `n` above zero. Below a power of two the numbers lie
twice as close. -/
def roundingInterval (n : Nat) : Nat × Nat :=
  let unit := spacing n
  let below := if unit ≠ 1 ∧ n = Nat.pow 2 n.log2 then unit else 2 * unit
  ((4 * n - below) * Nat.pow 5 1074, (4 * n + 2 * unit) * Nat.pow 5 1074)

def roundsTo (n x : Nat) : Bool :=
  let (low, high) := roundingInterval n
  if n / spacing n % 2 = 0 then low ≤ x && x ≤ high else low < x && x < high

/-- The multiple of `10 ^ k` nearest to a number, if one of its two neighbours rounds to it. From
the middle between both it goes up. -/
def nearestMultiple? (n k : Nat) : Option Nat :=
  let step := 4 * Nat.pow 10 k
  let down := quarters n / step
  let rest := quarters n % step
  match roundsTo n (down * step), roundsTo n ((down + 1) * step) with
  | true, true => some (if 2 * rest < step then down else down + 1)
  | true, false => some down
  | false, true => some (down + 1)
  | false, false => none

/-- The search goes down from the exponent `k - 1074`; at `-1074` the number itself is a decimal. -/
def shortestFrom (n : Nat) : Nat → Decimal
  | 0 => ⟨quarters n / 4, -1074⟩
  | k + 1 =>
    match nearestMultiple? n (k + 1) with
    | some coefficient => ⟨coefficient, (k + 1 : Nat) - 1074⟩
    | none => shortestFrom n k

/-- The shortest decimal of `n` quanta. -/
def shortest (n : Nat) : Decimal :=
  if n = 0 then ⟨0, 0⟩ else shortestFrom n (Numeral.ofNat (quarters n)).length

def text : Binary64 → Text
  | finite negative n _ => (if negative then ['-'] else []) ++ (shortest n).positional
  | infinite false => ['i', 'n', 'f']
  | infinite true => ['-', 'i', 'n', 'f']
  | nan => ['N', 'a', 'N']

end Binary64
end Placeholders
