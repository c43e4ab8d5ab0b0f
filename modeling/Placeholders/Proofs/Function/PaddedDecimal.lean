import Placeholders.Proofs.Decimal.Padding
import Placeholders.Proofs.Function.Magnitude

/-!
Random decimals with and without padding. The arguments for the widths change the text and leave its
number as it is, for one random number and for sums.
-/

namespace Placeholders
namespace Decimal

open Binary64 (Fits)
open Numeral (Plain exists_digits? rational? unsigned?)

theorem unsigned?_of_plain {places wholeWidth fractionWidth : Nat} {t : Text}
    (h : Plain places wholeWidth fractionWidth t) : ∃ q, unsigned? t = some q := by
  obtain ⟨whole, hwhole, hlength, htext⟩ := h
  obtain ⟨w, hw⟩ := exists_digits? hwhole (by omega)
  by_cases hplaces : places = 0
  · rw [if_pos hplaces] at htext
    rw [htext]
    exact ⟨_, Numeral.unsigned?_digits hw⟩
  · rw [if_neg hplaces] at htext
    obtain ⟨fraction, hfraction, hlength', rfl⟩ := htext
    obtain ⟨f, hf⟩ := exists_digits? hfraction (by omega)
    exact ⟨_, Numeral.unsigned?_point hw hf⟩

theorem number?_fixed_finite (negative : Bool) {n : Nat} (fits : Fits n) (places : Nat) :
    ∃ q, number? (fixed (.finite negative n fits) places) = some q := by
  obtain ⟨q, hq⟩ := unsigned?_of_plain (plain_fixed fits places)
  have hpositive := number?_of_rational? (Numeral.rational?_of_unsigned? hq)
  cases negative with
  | false => exact ⟨q, hpositive⟩
  | true =>
      by_cases hn : n = 0
      · subst hn
        exact ⟨q, hpositive⟩
      · have hnegative : rational? ('-' :: fixed (.finite false n fits) places) = some (-q) := by
          rw [rational?, hq, Option.map_some]
        rw [fixed_negative hn]
        exact ⟨-q, number?_of_rational? hnegative⟩

section
variable {x : Binary64} {name : Text} {negative : Bool} (hx : x.isZero = false)
  (htext : x.text = (if negative then ['-'] else []) ++ name) (hpoint : '.' ∉ name)
  (hsign : name.head? ≠ some '-') (places : Nat)
include hx htext hpoint hsign

/-- A name takes the place of the whole part. -/
theorem laidOut_name : LaidOut (fixed x places)
    ⟨negative, name, if places = 0 then none else some (List.replicate places '0')⟩ := by
  refine ⟨?_, hpoint, fun _ => hsign⟩
  have hnone : '.' ∉ x.text := by
    rw [htext]
    cases negative <;> simp [hpoint]
  have hsplit := splitPoint_eq hnone none
  rw [pointed, List.append_nil] at hsplit
  rw [fixed, hx, if_neg Bool.false_ne_true, hsplit, htext, Layout.text]
  by_cases hplaces : places = 0
  · simp only [if_pos hplaces, pointed, List.append_nil]
  · simp only [if_neg hplaces, pointed]
    rfl

theorem mem_digits_of_name {c : Char} (hc : c ∈ name) :
    c ∈ (layout (fixed x places)).digits := by
  rw [(laidOut_name hx htext hpoint hsign places).layout_eq]
  exact List.mem_append_left _ hc

end

/-- The text of an infinity, and of what is not a number, has letters where digits would be. -/
theorem exists_letter {x : Binary64} (hx : ¬ ∃ negative n fits, x = .finite negative n fits)
    (places : Nat) : ∃ c ∈ (layout (fixed x places)).digits, ¬ isDigit c := by
  cases x with
  | finite negative n fits => exact absurd ⟨negative, n, fits, rfl⟩ hx
  | infinite negative =>
      have htext : (Binary64.infinite negative).text =
          (if negative then ['-'] else []) ++ ['i', 'n', 'f'] := by
        cases negative <;> rfl
      refine ⟨'i', mem_digits_of_name rfl htext ?_ ?_ places List.mem_cons_self, ?_⟩ <;> decide
  | nan =>
      have htext : Binary64.nan.text = (if false then ['-'] else []) ++ ['N', 'a', 'N'] := rfl
      refine ⟨'N', mem_digits_of_name rfl htext ?_ ?_ places List.mem_cons_self, ?_⟩ <;> decide

/-- A written text spells a number if and only if what is written is a finite number. -/
theorem number?_fixed_iff (x : Binary64) (places : Nat) :
    (∃ q, number? (fixed x places) = some q) ↔ ∃ negative n fits, x = .finite negative n fits := by
  constructor
  · rintro ⟨q, hq⟩
    by_contra hx
    obtain ⟨c, hc, hletter⟩ := exists_letter hx places
    obtain ⟨n, hn, -⟩ := Option.map_eq_some_iff.mp hq
    exact hletter (Numeral.isDigit_of_digits? hn hc)
  · rintro ⟨negative, n, fits, rfl⟩
    exact number?_fixed_finite negative fits places

theorem number?_pad_fixed (x : Binary64) (places wholeWidth fractionWidth : Nat) :
    number? (pad (fixed x places) wholeWidth fractionWidth) = number? (fixed x places) := by
  apply number?_pad
  by_cases hx : ∃ negative n fits, x = .finite negative n fits
  · obtain ⟨q, hq⟩ := (number?_fixed_iff x places).mpr hx
    exact digits_ne_nil_of_number? hq
  · obtain ⟨c, hc, -⟩ := exists_letter hx places
    exact List.ne_nil_of_mem hc

end Decimal

/-- Two calls with one seed and the same indexes. The second has arguments for the widths, too. -/
structure Call.Widens (call wide : Call) : Prop where
  seed : wide.seed = call.seed
  indexes : wide.invocation.indexes = call.invocation.indexes
  arguments : ∃ wholeDigits places wholeWidth fractionWidth,
    call.invocation.arguments = [wholeDigits, places] ∧
      wide.invocation.arguments = [wholeDigits, places, wholeWidth, fractionWidth]

theorem Call.Widens.onlyIndex_eq_ok_iff {call wide : Call} (h : call.Widens wide) (index : Int64) :
    wide.onlyIndex = .ok index ↔ call.onlyIndex = .ok index := by
  have hindex : wide.invocation.onlyIndex? 1 = call.invocation.onlyIndex? 1 := by
    rw [Invocation.onlyIndex?, Invocation.onlyIndex?, h.indexes]
  rw [onlyIndex, onlyIndex, hindex]
  cases call.invocation.onlyIndex? 1 with
  | none => constructor <;> (intro hok; contradiction)
  | some i => exact Iff.rfl

namespace DecimalForm

def withoutWidths (form : DecimalForm) : DecimalForm := { form with widths := none }

section
variable {call wide : Call} {form : DecimalForm}

/-- Without widths the same arguments are accepted, and they ask for the same digits. -/
theorem ofCall_of_widens (h : call.Widens wide) (hform : ofCall wide = .ok form) :
    ∃ a b, form.widths = some (a, b) ∧ ofCall call = .ok form.withoutWidths := by
  obtain ⟨a₁, a₂, a₃, a₄, hcall, hwide⟩ := h.arguments
  have hasked := ofCall_eq_ok_iff.mp hform
  rw [hwide] at hasked
  obtain ⟨wholeDigits, places, widths⟩ := form
  cases widths with
  | none =>
      have hfour : 4 = 2 := hasked.numbers.length_eq
      contradiction
  | some widths =>
      obtain ⟨hwhole, hrest⟩ := List.forall₂_cons.mp hasked.numbers
      obtain ⟨hplaces, -⟩ := List.forall₂_cons.mp hrest
      refine ⟨widths.1, widths.2, rfl, ofCall_eq_ok_iff.mpr ?_⟩
      rw [hcall]
      exact ⟨.cons hwhole (.cons hplaces .nil), hasked.digits, nofun⟩

end

/-- The rounded sum of a call. -/
def total (form : DecimalForm) (call : Call) : Binary64 :=
  Decimal.roundTo (form.sum call.seed
    (if call.invocation.indexes = [] then [1] else call.invocation.indexes)) form.places

theorem write_eq_pad {form : DecimalForm} {a b : Nat} (h : form.widths = some (a, b))
    (x : Binary64) : form.write x = Decimal.pad (form.withoutWidths.write x) a b := by
  rw [write, h]
  rfl

end DecimalForm

namespace RandomDecimal

open Decimal (Layout LaidOut pad number?)

section
variable {call wide : Call} {form : DecimalForm}

theorem value_eq_ok {index : Int64} (hindex : call.onlyIndex = .ok index)
    (hform : DecimalForm.ofCall call = .ok form) :
    value call = .ok (form.write (form.draw call.seed index)) := by
  rw [value, hindex, hform]
  rfl

theorem sum_eq_ok (hform : DecimalForm.ofCall call = .ok form) :
    sum call = .ok (form.write (form.total call)) := by
  rw [sum, hform]
  rfl

section
variable {a b : Nat} (h : call.Widens wide) (hform : DecimalForm.ofCall wide = .ok form)
  (hform' : DecimalForm.ofCall call = .ok form.withoutWidths) (hwidths : form.widths = some (a, b))
include h hform hform' hwidths

/-- Widths pad the text of a random decimal. It has a number, and padded the same one. -/
theorem value_widens {index : Int64} (hindex : call.onlyIndex = .ok index) :
    ∃ t q, value call = .ok t ∧ value wide = .ok (pad t a b) ∧ number? t = some q ∧
      number? (pad t a b) = some q := by
  have hindex' := (h.onlyIndex_eq_ok_iff index).mpr hindex
  obtain ⟨n, fits, hdraw⟩ :=
    form.draw_finite call.seed index (DecimalForm.digits_le_of_ofCall hform)
  obtain ⟨q, hq⟩ := Decimal.number?_fixed_finite false fits form.places
  rw [← hdraw] at hq
  refine ⟨_, q, value_eq_ok hindex hform', ?_, hq, ?_⟩
  · rw [value_eq_ok hindex' hform, h.seed, DecimalForm.write_eq_pad hwidths]
    rfl
  · exact (Decimal.number?_pad_fixed _ form.places a b).trans hq

/-- Widths pad the text of a sum and keep its number. A sum has one if it is finite. -/
theorem sum_widens : ∃ t, sum call = .ok t ∧ sum wide = .ok (pad t a b) ∧
    number? (pad t a b) = number? t ∧
    ((∃ q, number? t = some q) ↔
      ∃ negative n fits, form.total call = .finite negative n fits) := by
  have htotal : form.total wide = form.total call := by
    rw [DecimalForm.total, DecimalForm.total, h.seed, h.indexes]
  refine ⟨_, sum_eq_ok hform', ?_, ?_, ?_⟩
  · rw [sum_eq_ok hform, htotal, DecimalForm.write_eq_pad hwidths]
    rfl
  · exact Decimal.number?_pad_fixed (form.total call) form.places a b
  · exact Decimal.number?_fixed_iff (form.total call) form.places

end

end

/-- Padding only adds zeros. They stand in front of the whole part and behind the fraction of a
text, whose sizes reach the widths if they were below. A numeral keeps its value, padding again is
padding to the greater widths, and the same widths again change nothing. So the random decimals and
sums of a call denote the same numbers as without widths. -/
theorem padding_only_adds :
    (∀ (t : Text) (wholeWidth fractionWidth : Nat), ∃ (l : Layout) (front back : Nat),
      (∀ l', LaidOut t l' ↔ l' = l) ∧
        LaidOut (pad t wholeWidth fractionWidth) (l.extended front back) ∧
        (l.extended front back).whole.byteSize = max l.whole.byteSize wholeWidth ∧
        (l.extended front back).fraction.map Text.byteSize =
          l.fraction.map fun fraction => max fraction.byteSize fractionWidth) ∧
    (∀ (t : Text) (q : ℚ) (wholeWidth fractionWidth : Nat), number? t = some q →
      number? (pad t wholeWidth fractionWidth) = some q) ∧
    (∀ (t : Text) (a b c d : Nat), pad (pad t a b) c d = pad t (max a c) (max b d)) ∧
    (∀ (t : Text) (a b : Nat), pad (pad t a b) a b = pad t a b) ∧
    ∀ (call wide : Call) (form : DecimalForm), call.Widens wide →
      DecimalForm.ofCall wide = .ok form → ∃ a b, form.widths = some (a, b) ∧
      (∀ index, call.onlyIndex = .ok index → ∃ t q, value call = .ok t ∧
        value wide = .ok (pad t a b) ∧ number? t = some q ∧ number? (pad t a b) = some q) ∧
      ∃ t, sum call = .ok t ∧ sum wide = .ok (pad t a b) ∧ number? (pad t a b) = number? t ∧
        ((∃ q, number? t = some q) ↔
          ∃ negative n fits, form.total call = .finite negative n fits) := by
  refine ⟨?_, ?_, Decimal.pad_pad, ?_, ?_⟩
  · intro t wholeWidth fractionWidth
    obtain ⟨front, back, hextended⟩ :=
      (Decimal.layout t).padded_eq_extended wholeWidth fractionWidth
    refine ⟨Decimal.layout t, front, back, fun l' => Decimal.laidOut_iff, ?_⟩
    rw [← hextended, ← Decimal.layout_pad]
    refine ⟨Decimal.laidOut_layout _, ?_⟩
    rw [Decimal.layout_pad]
    exact (Decimal.layout t).byteSize_padded wholeWidth fractionWidth
  · intro t q wholeWidth fractionWidth hq
    rw [Decimal.number?_pad (Decimal.digits_ne_nil_of_number? hq), hq]
  · intro t a b
    rw [Decimal.pad_pad, Nat.max_self, Nat.max_self]
  · intro call wide form h hform
    obtain ⟨a, b, hwidths, hform'⟩ := DecimalForm.ofCall_of_widens h hform
    exact ⟨a, b, hwidths, fun index hindex => value_widens h hform hform' hwidths hindex,
      sum_widens h hform hform' hwidths⟩

theorem padding_only_adds_of_five_digits :
    number? "-1.5".toList = some (-3 / 2) ∧ pad "-1.5".toList 3 4 = "-001.5000".toList ∧
      number? (pad "-1.5".toList 3 4) = some (-3 / 2) ∧
      (plainCall ["2".toList, "3".toList] 1).Widens
        (plainCall ["2".toList, "3".toList, "5".toList, "6".toList] 1) ∧
      DecimalForm.ofCall (plainCall ["2".toList, "3".toList, "5".toList, "6".toList] 1) =
        .ok ⟨2, 3, some (5, 6)⟩ ∧
      (plainCall ["2".toList, "3".toList] 1).onlyIndex = .ok 1 ∧
      ∃ t q, value (plainCall ["2".toList, "3".toList] 1) = .ok t ∧
        value (plainCall ["2".toList, "3".toList, "5".toList, "6".toList] 1) = .ok (pad t 5 6) ∧
        number? t = some q ∧ number? (pad t 5 6) = some q := by
  have hnumber : number? "-1.5".toList = some (-3 / 2) := by decide +kernel
  have hwidens : (plainCall ["2".toList, "3".toList] 1).Widens
      (plainCall ["2".toList, "3".toList, "5".toList, "6".toList] 1) :=
    ⟨rfl, rfl, _, _, _, _, rfl, rfl⟩
  have hform : DecimalForm.ofCall
      (plainCall ["2".toList, "3".toList, "5".toList, "6".toList] 1) =
        .ok ⟨2, 3, some (5, 6)⟩ := rfl
  have hindex : (plainCall ["2".toList, "3".toList] 1).onlyIndex = .ok 1 := rfl
  obtain ⟨-, hvalue, -, -, hcalls⟩ := padding_only_adds
  obtain ⟨a, b, hwidths, hrandom, -⟩ := hcalls _ _ _ hwidens hform
  obtain ⟨rfl, rfl⟩ := Prod.mk.inj (Option.some_inj.mp hwidths)
  exact ⟨hnumber, by decide, hvalue _ _ 3 4 hnumber, hwidens, hform, hindex, hrandom 1 hindex⟩

end RandomDecimal
end Placeholders
