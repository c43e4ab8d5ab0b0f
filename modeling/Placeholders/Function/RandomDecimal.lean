import Placeholders.Decimal.Fixed
import Placeholders.Decimal.Rounding
import Placeholders.Entropy.Stream
import Placeholders.Function.Call

/-!
Random decimals with a given number of digits before and after the point, and signed sums of them.
-/

namespace Placeholders

/-- The digits of a decimal and, if it is padded, the widths of its whole part and its fraction. -/
structure DecimalForm where
  wholeDigits : Nat
  places : Nat
  widths : Option (Nat × Nat)
deriving Repr, DecidableEq

namespace DecimalForm

/-- More digits in all would be too large a number on the way. -/
def digitLimit : Nat := 300

def widthLimit : Nat := 1024

/-- An unsigned word of 32 bits. -/
def natural (call : Call) (argument : Text) : Except CallError Nat := do
  let n ← call.integer argument
  if 0 ≤ n.toInt ∧ n.toInt.toNat < UInt32.size then .ok n.toInt.toNat
  else .error (call.error (.outOfRange argument .notUnsigned32))

def checkDigits (call : Call) (argument : Text) (wholeDigits places : Nat) :
    Except CallError Unit :=
  if wholeDigits + places ≤ digitLimit then .ok ()
  else .error (call.error (.outOfRange argument .tooManyDigits))

def checkWidth (call : Call) (argument : Text) (width : Nat) : Except CallError Unit :=
  if width ≤ widthLimit then .ok () else .error (call.error (.outOfRange argument .padTooWide))

/-- All arguments are read before any is judged by its size. -/
def ofCall (call : Call) : Except CallError DecimalForm :=
  match call.invocation.arguments with
  | [a₁, a₂] => do
    let wholeDigits ← natural call a₁
    let places ← natural call a₂
    checkDigits call a₁ wholeDigits places
    pure ⟨wholeDigits, places, none⟩
  | [a₁, a₂, a₃, a₄] => do
    let wholeDigits ← natural call a₁
    let places ← natural call a₂
    let wholeWidth ← natural call a₃
    let fractionWidth ← natural call a₄
    checkDigits call a₁ wholeDigits places
    checkWidth call a₃ wholeWidth
    checkWidth call a₄ fractionWidth
    pure ⟨wholeDigits, places, some (wholeWidth, fractionWidth)⟩
  | _ => .error (call.countError .twoOrFour)

def write (form : DecimalForm) (x : Binary64) : Text :=
  let t := Decimal.fixed x form.places
  match form.widths with
  | none => t
  | some (wholeWidth, fractionWidth) => Decimal.pad t wholeWidth fractionWidth

/-- A whole number of some digits from the unit interval. -/
def scaled (digits : Nat) (unit : Binary64) : Binary64 :=
  (Decimal.powerOfTen digits * unit).floor

/-- The random number of an index: its whole part and then its fraction from one stream. -/
def draw (form : DecimalForm) (seed : Seed) (index : Int64) : Binary64 :=
  let (unit, s) := (RandomStream.atIndex seed index).nextUnit
  let whole := scaled form.wholeDigits unit
  let sum :=
    if 0 < form.places then
      whole + Decimal.powerOfTen (-form.places) * scaled form.places s.nextUnit.1
    else whole
  Decimal.roundTo sum form.places

/-- The numbers of the absolute indexes, each with the sign of its index. -/
def sum (form : DecimalForm) (seed : Seed) (indexes : List Int64) : Binary64 :=
  indexes.foldl
    (fun total index =>
      let x := form.draw seed index.abs
      if 0 ≤ index then total + x else total - x)
    (.zero false)

end DecimalForm

namespace RandomDecimal

/-- The index is judged before the arguments. -/
def value (call : Call) : Except CallError Text := do
  let index ← call.onlyIndex
  let form ← DecimalForm.ofCall call
  pure (form.write (form.draw call.seed index))

/-- No index stands for the index 1. -/
def sum (call : Call) : Except CallError Text := do
  let form ← DecimalForm.ofCall call
  let indexes := if call.invocation.indexes = [] then [1] else call.invocation.indexes
  pure (form.write (Decimal.roundTo (form.sum call.seed indexes) form.places))

def handler {m : Type → Type} [Monad m] : Handler m := fun call => pure (value call)

def sumHandler {m : Type → Type} [Monad m] : Handler m := fun call => pure (sum call)

end RandomDecimal
end Placeholders
