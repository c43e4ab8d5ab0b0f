import Placeholders.Binary64

/-!
Rounding to decimal places in binary floating point. Powers of ten, the product and the quotient
are rounded themselves, so the result is near the decimal that is meant and seldom equal to it.
-/

namespace Placeholders.Decimal

/-- Ten to some power. A negative power is one over the positive one. -/
def powerOfTen (exponent : Int) : Binary64 :=
  let p := (Binary64.ofNat 10).power exponent.natAbs
  if exponent < 0 then .ofNat 1 / p else p

/-- Exponents are signed words of 32 bits; more places than the greatest count as the greatest. -/
def maxExponent : Nat := Nat.pow 2 31 - 1

/-- Rounds to some decimal places, the middle towards the greater neighbour. Zero has no sign. -/
def roundTo (x : Binary64) (places : Nat) : Binary64 :=
  let scale := powerOfTen (min places maxExponent)
  let rounded := (x * scale + .half).floor / scale
  if rounded.isZero then .zero false else rounded

end Placeholders.Decimal
