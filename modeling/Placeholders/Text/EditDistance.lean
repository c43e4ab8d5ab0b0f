import Placeholders.Text

/-!
The least number of insertions, deletions and substitutions of single characters that turn one text
into another, computed row by row over the ends of the second text.
-/

namespace Placeholders.Text

/-- The distances from `x :: t` to every end of a text, from those of `t`. -/
def extendRow (x : Char) : Text → List Nat → List Nat
  | y :: ys, d :: d' :: ds =>
    match extendRow x ys (d' :: ds) with
    | e :: es => min (min (d + 1) (e + 1)) (if x = y then d' else d' + 1) :: e :: es
    | [] => []
  | _, ds => ds.map (· + 1)

/-- The distances from a text to every end of `other`, the whole of it first. -/
def distanceRow (other : Text) : Text → List Nat
  | [] => (List.range (other.length + 1)).reverse
  | x :: t => extendRow x other (distanceRow other t)

def editDistance (t other : Text) : Nat := (distanceRow other t).headD 0

end Placeholders.Text
