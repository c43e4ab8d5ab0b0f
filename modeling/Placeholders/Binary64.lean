/-!
Binary floating-point numbers of 64 bits. A finite number is a sign and a count of quanta of
`2 ^ -1074`, the least positive number, so that arithmetic is exact arithmetic on natural numbers
and one rounding: to the nearest number that 53 significant bits can hold, and of two equally near
ones to the even one.
-/

namespace Placeholders

namespace Binary64

/-- The quanta in the number one. -/
def one : Nat := Nat.pow 2 1074

/-- The least power of two that is too large. -/
def limit : Nat := Nat.pow 2 2098

/-- The distance between the numbers around `n` quanta. -/
def spacing (n : Nat) : Nat := Nat.pow 2 (n.log2 - 52)

/-- The count of quanta of some number. -/
def Fits (n : Nat) : Prop := n < limit ∧ spacing n ∣ n

instance (n : Nat) : Decidable (Fits n) := inferInstanceAs (Decidable (_ ∧ _))

end Binary64

inductive Binary64 where
  | finite (negative : Bool) (quanta : Nat) (fits : Binary64.Fits quanta)
  | infinite (negative : Bool)
  | nan
deriving DecidableEq

namespace Binary64

def ofQuanta (negative : Bool) (n : Nat) : Binary64 :=
  if h : Fits n then finite negative n h else infinite negative

theorem limit_pos : 0 < limit := by
  unfold limit
  apply Nat.pow_pos
  decide

theorem fits_zero : Fits 0 := ⟨limit_pos, Nat.dvd_zero _⟩

def zero (negative : Bool) : Binary64 := finite negative 0 fits_zero

/-- The quotient, rounded to the nearest and from the middle to the even neighbour. -/
def divNearest (num den : Nat) : Nat :=
  let quotient := num / den
  let twice := 2 * (num % den)
  if twice < den then quotient
  else if den < twice then quotient + 1
  else quotient + quotient % 2

/-- The number nearest to `num / den` quanta. -/
def ofRatio (negative : Bool) (num den : Nat) : Binary64 :=
  let unit := spacing (num / den)
  ofQuanta negative (divNearest num (den * unit) * unit)

def ofNat (n : Nat) : Binary64 := ofRatio false (n * one) 1

def half : Binary64 := ofRatio false one 2

def isNegative : Binary64 → Bool
  | finite negative _ _ => negative
  | infinite negative => negative
  | nan => false

def isZero : Binary64 → Bool
  | finite _ n _ => n == 0
  | _ => false

def neg : Binary64 → Binary64
  | finite negative n h => finite (!negative) n h
  | infinite negative => infinite (!negative)
  | nan => nan

/-- The sum of two finite numbers. Zero is negative only as a sum of negative zeros. -/
def addFinite (negative₁ : Bool) (n₁ : Nat) (negative₂ : Bool) (n₂ : Nat) : Binary64 :=
  if negative₁ = negative₂ then ofRatio negative₁ (n₁ + n₂) 1
  else if n₁ = n₂ then zero false
  else if n₁ < n₂ then ofRatio negative₂ (n₂ - n₁) 1
  else ofRatio negative₁ (n₁ - n₂) 1

def add : Binary64 → Binary64 → Binary64
  | finite negative₁ n₁ _, finite negative₂ n₂ _ => addFinite negative₁ n₁ negative₂ n₂
  | nan, _ => nan
  | _, nan => nan
  | infinite negative₁, infinite negative₂ =>
    if negative₁ = negative₂ then infinite negative₁ else nan
  | infinite negative, finite .. => infinite negative
  | finite .., infinite negative => infinite negative

def sub (x y : Binary64) : Binary64 := x.add y.neg

def mul (x y : Binary64) : Binary64 :=
  let negative := x.isNegative ^^ y.isNegative
  match x, y with
  | finite _ n₁ _, finite _ n₂ _ => ofRatio negative (n₁ * n₂) one
  | nan, _ => nan
  | _, nan => nan
  | infinite _, y => if y.isZero then nan else infinite negative
  | x, infinite _ => if x.isZero then nan else infinite negative

def div (x y : Binary64) : Binary64 :=
  let negative := x.isNegative ^^ y.isNegative
  match x, y with
  | finite _ n₁ _, finite _ n₂ _ =>
    if n₂ = 0 then (if n₁ = 0 then nan else infinite negative)
    else ofRatio negative (n₁ * one) n₂
  | nan, _ => nan
  | _, nan => nan
  | infinite _, infinite _ => nan
  | infinite _, finite .. => infinite negative
  | finite .., infinite _ => zero negative

/-- The greatest whole number that is not above; the sign of zero stays. -/
def floor : Binary64 → Binary64
  | finite negative n _ =>
    ofQuanta negative ((if negative then (n + one - 1) / one else n / one) * one)
  | x => x

instance : Neg Binary64 := ⟨neg⟩
instance : Add Binary64 := ⟨add⟩
instance : Sub Binary64 := ⟨sub⟩
instance : Mul Binary64 := ⟨mul⟩
instance : Div Binary64 := ⟨div⟩

/-- The power by squaring from the lowest bit of the exponent up, with a rounding at every
multiplication. -/
def power (x : Binary64) (exponent : Nat) : Binary64 :=
  ((List.range (exponent.log2 + 1)).foldl
    (fun (result, square) i =>
      (if exponent.testBit i then result * square else result, square * square))
    (ofNat 1, x)).1

end Binary64
end Placeholders
