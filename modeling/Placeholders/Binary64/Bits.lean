import Placeholders.Binary64

/-!
The words of the interchange format: a sign bit, eleven bits of exponent and 52 bits of fraction.
-/

namespace Placeholders.Binary64

/-- The least significand whose leading bit is not written. -/
def hiddenBit : Nat := Nat.pow 2 52

def ofBits (bits : UInt64) : Binary64 :=
  let n := bits.toNat
  let negative := n.testBit 63
  let exponent := n / hiddenBit % 2048
  let fraction := n % hiddenBit
  if exponent = 2047 then (if fraction = 0 then infinite negative else nan)
  else if exponent = 0 then ofQuanta negative fraction
  else ofQuanta negative ((hiddenBit + fraction) * Nat.pow 2 (exponent - 1))

def magnitudeBits (n : Nat) : Nat :=
  if n < hiddenBit then n
  else (n.log2 - 51) * hiddenBit + (n / spacing n - hiddenBit)

def signBit (negative : Bool) : Nat := if negative then Nat.pow 2 63 else 0

/-- The word of a number; there is none for what is not a number. -/
def toBits? : Binary64 → Option UInt64
  | finite negative n _ => some (.ofNat (signBit negative + magnitudeBits n))
  | infinite negative => some (.ofNat (signBit negative + 2047 * hiddenBit))
  | nan => none

end Placeholders.Binary64
