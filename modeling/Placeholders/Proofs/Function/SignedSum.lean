import Placeholders.Proofs.Decimal.Fixed
import Placeholders.Proofs.Function.DecimalArguments
import Placeholders.Proofs.Function.Draw

/-!
The sum over one index against the single value. The sum rounds a rounded number a second time, so
the two agree as long as the second rounding keeps it: up to 15 digits, and without places.
-/

namespace Placeholders

/-- The same call with other indexes. -/
def Call.withIndexes (call : Call) (indexes : List Int64) : Call :=
  { call with invocation := { call.invocation with indexes } }

section
variable {k : Int64} (h : 0 < k)
include h

theorem toInt_neg_of_pos : (-k).toInt = -k.toInt := by
  have hpos : 0 < k.toInt := Int64.lt_iff_toInt_lt.mp h
  have hlt := k.toInt_lt
  rw [Int64.toInt_neg]
  apply Int.bmod_eq_of_le <;> omega

theorem abs_of_pos : k.abs = k := by
  have hpos : 0 < k.toInt := Int64.lt_iff_toInt_lt.mp h
  have hmsb : k.toBitVec.msb = false := by
    rw [BitVec.msb_eq_toInt, Int64.toInt_toBitVec, decide_eq_false (by omega)]
  apply Int64.toBitVec_inj.mp
  change k.toBitVec.abs = k.toBitVec
  rw [BitVec.abs_eq, hmsb, if_neg Bool.false_ne_true]

theorem abs_neg_of_pos : (-k).abs = k := by
  have hpos : 0 < k.toInt := Int64.lt_iff_toInt_lt.mp h
  have hneg := toInt_neg_of_pos h
  have hmsb : (-k).toBitVec.msb = true := by
    rw [BitVec.msb_eq_toInt, Int64.toInt_toBitVec, decide_eq_true (by omega)]
  apply Int64.toBitVec_inj.mp
  change (-k).toBitVec.abs = k.toBitVec
  rw [BitVec.abs_eq, hmsb, if_pos rfl, ← Int64.toBitVec_neg, Int64.neg_neg]

theorem not_nonneg_neg : ¬ 0 ≤ -k := by
  have hpos : 0 < k.toInt := Int64.lt_iff_toInt_lt.mp h
  have hneg := toInt_neg_of_pos h
  rw [Int64.le_iff_toInt_le, Int64.toInt_zero]
  omega

end

namespace DecimalForm

open Binary64 Decimal Numeral

theorem ofCall_withIndexes (call : Call) (indexes : List Int64) :
    ofCall (call.withIndexes indexes) = ofCall call := rfl

section
variable {form : DecimalForm} {n : Nat} (fits : Fits n)
  (hfine : -form.places ≤ (shortest n).exponent)
include hfine

theorem write_negative (hn : n ≠ 0) :
    form.write (.finite true n fits) = '-' :: form.write (.finite false n fits) := by
  obtain ⟨hreads, -⟩ := fixed_reads (h := fits) hfine
  rw [write, write, fixed_negative hn]
  cases form.widths with
  | none => rfl
  | some widths => exact pad_minus hreads

theorem zeros_write : Zeros (form.write (.finite false n fits)) ↔ n = 0 := by
  obtain ⟨hreads, -⟩ := fixed_reads (h := fits) hfine
  have hwrite : Zeros (form.write (.finite false n fits)) ↔
      Zeros (fixed (.finite false n fits) form.places) := by
    rw [write]
    cases form.widths with
    | none => exact Iff.rfl
    | some widths => exact zeros_pad hreads
  rw [hwrite]
  constructor
  · intro hzeros
    by_contra hn
    have hpos := Nat.pos_of_ne_zero hn
    have hcoefficient := (isShortest_shortest fits.2 hpos).coefficient_pos hpos
    have hrat := unsigned?_of_zeros hreads hzeros
    rw [toRat, mul_eq_zero, Nat.cast_eq_zero] at hrat
    cases hrat with
    | inl hzero => omega
    | inr hpow => exact zpow_ne_zero _ (by decide) hpow
  · intro hn
    subst hn
    exact zeros_fixed fits form.places

end

section
variable (form : DecimalForm) (seed : Seed) {k : Int64} (hk : 0 < k)
include hk

theorem sum_positive : form.sum seed [k] = .zero false + form.draw seed k := by
  have hle : 0 ≤ k := Int64.le_of_lt hk
  simp only [sum, List.foldl_cons, List.foldl_nil, if_pos hle, abs_of_pos hk]

theorem sum_negative : form.sum seed [-k] = .zero false - form.draw seed k := by
  simp only [sum, List.foldl_cons, List.foldl_nil, if_neg (not_nonneg_neg hk), abs_neg_of_pos hk]

/-- Up to 15 digits, and without places, the rounded sum is the number of the index with a sign. -/
theorem write_sum (hdigits : form.wholeDigits + form.places ≤ 300)
    (hfew : form.places = 0 ∨ form.wholeDigits + form.places ≤ 15) :
    form.write (roundTo (form.sum seed [k]) form.places) = form.write (form.draw seed k) ∧
      form.write (roundTo (form.sum seed [-k]) form.places) =
        if Zeros (form.write (form.draw seed k)) then form.write (form.draw seed k)
        else '-' :: form.write (form.draw seed k) := by
  obtain ⟨m, fits, hdraw, hplaces, hkept, j, hj, hbound⟩ := draw_kept form seed k hdigits hfew
  have hfine := neg_le_exponent fits (.inl ⟨m, rfl⟩)
  have hzeros := zeros_write fits hfine
  have hround := hkept.roundTo_positive hplaces fits hj hbound
  rw [sum_positive form seed hk, sum_negative form seed hk, hdraw, zero_add, hround]
  refine ⟨rfl, ?_⟩
  by_cases hzero : nearest (m * one) (10 ^ form.places) = 0
  · rw [zero_sub_of_eq_zero fits hzero, hround, if_pos (hzeros.mpr hzero)]
  · rw [zero_sub fits hzero, hkept.roundTo_negative hplaces fits hj hbound hzero,
      if_neg (mt hzeros.mp hzero), write_negative fits hfine hzero]

end

end DecimalForm

namespace RandomDecimal

open Numeral (Zeros)

section
variable {call : Call} {form : DecimalForm} (hform : DecimalForm.ofCall call = .ok form)
include hform

theorem value_withIndexes (index : Int64) :
    value (call.withIndexes [index]) = .ok (form.write (form.draw call.seed index)) := by
  have hindex : (call.withIndexes [index]).onlyIndex = .ok index := rfl
  rw [value, hindex, DecimalForm.ofCall_withIndexes, hform]
  rfl

theorem sum_withIndexes (index : Int64) : sum (call.withIndexes [index]) =
    .ok (form.write (Decimal.roundTo (form.sum call.seed [index]) form.places)) := by
  rw [sum, DecimalForm.ofCall_withIndexes, hform]
  rfl

/-- The sum over an index gives the text of the value, and the sum over its negation the same text
with a sign, unless all its digits are zero. -/
theorem sum_sign {k : Int64} (hk : 0 < k)
    (hfew : form.places = 0 ∨ form.wholeDigits + form.places ≤ 15) :
    ∃ t, value (call.withIndexes [k]) = .ok t ∧ sum (call.withIndexes [k]) = .ok t ∧
      sum (call.withIndexes [-k]) = .ok (if Zeros t then t else '-' :: t) := by
  obtain ⟨hpositive, hnegative⟩ :=
    form.write_sum call.seed hk (DecimalForm.digits_le_of_ofCall hform) hfew
  refine ⟨form.write (form.draw call.seed k), value_withIndexes hform k, ?_, ?_⟩
  · rw [sum_withIndexes hform, hpositive]
  · rw [sum_withIndexes hform, hnegative]

end

/-- A call without indexes and with the identity left out. -/
def plainCall (arguments : List Text) (seed : Seed) : Call :=
  ⟨⟨[], [], [], arguments, ⟨false, seed⟩⟩, [], seed⟩

theorem sum_sign_of_five_digits :
    DecimalForm.ofCall (plainCall ["2".toList, "3".toList] 1) = .ok ⟨2, 3, none⟩ ∧
      (0 : Int64) < 1 ∧ 2 + 3 ≤ 15 ∧
      ∃ t, value ((plainCall ["2".toList, "3".toList] 1).withIndexes [1]) = .ok t ∧
        sum ((plainCall ["2".toList, "3".toList] 1).withIndexes [1]) = .ok t ∧
        sum ((plainCall ["2".toList, "3".toList] 1).withIndexes [-1]) =
          .ok (if Zeros t then t else '-' :: t) := by
  have hform : DecimalForm.ofCall (plainCall ["2".toList, "3".toList] 1) = .ok ⟨2, 3, none⟩ := rfl
  have hk : (0 : Int64) < 1 := by decide
  exact ⟨hform, hk, by decide, sum_sign hform hk (.inr (by decide))⟩

/-- With 16 digits the second rounding moves a number down at its last place. -/
theorem sum_sign_fails :
    ¬ ∀ (call : Call) (form : DecimalForm) (k : Int64), DecimalForm.ofCall call = .ok form →
      0 < k → ∃ t, value (call.withIndexes [k]) = .ok t ∧ sum (call.withIndexes [k]) = .ok t ∧
        sum (call.withIndexes [-k]) = .ok (if Zeros t then t else '-' :: t) := by
  intro h
  have hform : DecimalForm.ofCall (plainCall ["8".toList, "8".toList] 74) = .ok ⟨8, 8, none⟩ := rfl
  have hvalue : (value ((plainCall ["8".toList, "8".toList] 74).withIndexes [1])).toOption =
      some "79857010.02710053".toList := by decide +kernel
  have hsum : (sum ((plainCall ["8".toList, "8".toList] 74).withIndexes [-1])).toOption =
      some "-79857010.02710052".toList := by decide +kernel
  obtain ⟨t, ht, -, hneg⟩ := h _ _ 1 hform (by decide)
  rw [ht] at hvalue
  obtain rfl : t = "79857010.02710053".toList := Option.some_inj.mp hvalue
  rw [hneg] at hsum
  exact absurd (Option.some_inj.mp hsum) (by decide)

end RandomDecimal
end Placeholders
