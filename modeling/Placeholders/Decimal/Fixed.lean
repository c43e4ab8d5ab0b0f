import Placeholders.Binary64.Shortest

/-!
Decimal text with a fixed number of places, and padding of decimal text on both sides.
-/

namespace Placeholders.Decimal

/-- Text before the first point, and after it if there is one. -/
def splitPoint (t : Text) : Text × Option Text :=
  match Text.cutAt ['.'] t with
  | none => (t, none)
  | some (whole, fraction) => (whole, some fraction)

/-- The shortest decimal, filled up with zeros to some places. With no places the fraction is cut
off. Zero has no sign. -/
def fixed (x : Binary64) (places : Nat) : Text :=
  let shortest := if x.isZero then ['0'] else x.text
  let (whole, fraction) := splitPoint shortest
  if places = 0 then whole
  else whole ++ '.' :: (fraction.getD []).padRight places '0'

/-- Fills up the whole part with zeros in front, after a sign, and the fraction, if there is a
point, with zeros at the end. -/
def pad (t : Text) (wholeWidth fractionWidth : Nat) : Text :=
  let (sign, digits) := match t with
    | '-' :: digits => (['-'], digits)
    | digits => ([], digits)
  let (whole, fraction) := splitPoint digits
  sign ++ whole.padLeft wholeWidth '0' ++
    (match fraction with
      | none => []
      | some fraction => '.' :: fraction.padRight fractionWidth '0')

end Placeholders.Decimal
