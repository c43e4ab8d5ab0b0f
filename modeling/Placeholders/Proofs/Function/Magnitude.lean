import Placeholders.Proofs.Decimal.Shape
import Placeholders.Proofs.Function.SignedSum

/-!
Every draw of an accepted form is a finite number without a sign: with 300 digits in all, no product
on the way reaches the limit, and the inverse of a power of ten keeps a fraction near one.
-/

namespace Placeholders
namespace DecimalForm

open Binary64 Decimal

theorem nearest_le_two_mul (n : Nat) : nearest n 1 ≤ 2 * n := by
  obtain ⟨herror, -⟩ := nearest_error n Nat.one_pos
  rw [Nat.div_one, Nat.mul_one (nearest n 1), Nat.one_mul] at herror
  by_cases hone : spacing n = 1
  · omega
  · have hle := le_of_spacing_ne_one hone
    omega

section
variable {places scale k : Nat} {fits : Fits scale}
  (hscale : powerOfTen places = .finite false scale fits) (hone : one ≤ scale)
  (hle : scale ≤ 2 ^ k * one) (hk : k = 998)
include hscale hone hle hk

/-- The inverse of a power of ten does not take the power above two. -/
theorem inverse_finite (hpos : 0 < places) :
    ∃ n fits', powerOfTen (-places) = .finite false n fits' ∧ n * scale ≤ 2 ^ 1 * one * one := by
  obtain ⟨fits', hinverse⟩ := powerOfTen_neg hpos hscale hone
  refine ⟨_, fits', hinverse, ?_⟩
  have hscalepos : 0 < scale := Nat.lt_of_lt_of_le Binary64.one_pos hone
  have hfull : 2 ^ 52 * scale ≤ 1 * one * one := by
    obtain ⟨u, ⟨j, rfl⟩, heq⟩ := exists_one_eq (k := k + 52) (by omega)
    have hpow : 2 ^ 52 * 2 ^ k ≤ one := by
      rw [heq, ← Nat.pow_add, Nat.add_comm]
      exact Nat.le_mul_of_pos_right _ (Nat.two_pow_pos j)
    calc 2 ^ 52 * scale ≤ 2 ^ 52 * (2 ^ k * one) := Nat.mul_le_mul_left _ hle
      _ = 2 ^ 52 * 2 ^ k * one := by ring
      _ ≤ one * one := Nat.mul_le_mul_right one hpow
      _ = 1 * one * one := by ring
  obtain ⟨herror, -⟩ := nearest_relative_error hscalepos hfull
  rw [Nat.one_mul] at herror ⊢
  rw [Nat.pow_one, Nat.mul_assoc 2]
  omega

/-- The fraction of a draw is at most two. -/
theorem fraction_le_two (hpos : 0 < places) {u : Nat} (hu : Fits u) (hlt : u < one) :
    ∃ n fits', powerOfTen (-places) * scaled places (.finite false u hu) =
      .finite false n fits' ∧ n ≤ 2 ^ 1 * one := by
  obtain ⟨m, hm, hinverse, hmle⟩ := inverse_finite hscale hone hle hk hpos
  obtain ⟨hproduct, hf, hscaled⟩ := scaled_eq hscale hle (by omega) hu hlt
  have hbound : m * (nearest (scale * u) one / one * one) ≤ 2 ^ 1 * one * one :=
    (Nat.mul_le_mul_left m ((Nat.div_mul_le_self _ _).trans hproduct)).trans hmle
  obtain ⟨fits', hmul⟩ := mul_finite hm hf false (by decide) hbound
  exact ⟨_, fits', by rw [hinverse, hscaled, hmul], nearest_le_pow Binary64.one_pos hbound⟩

end

section
variable {wholeDigits places w f k : Nat} (hdigits : wholeDigits + places ≤ 300) (hk : k = 998)
  (hw : w ≤ 2 * 10 ^ wholeDigits) (hf : f ≤ 2 ^ 1 * one)
include hdigits hw hf

theorem parts_le : w * one + f ≤ 4 * (10 ^ (300 - places) * one) := by
  have hten : 10 ^ wholeDigits ≤ 10 ^ (300 - places) :=
    Nat.pow_le_pow_right (by decide) (by omega)
  have hpos : 0 < 10 ^ (300 - places) := Nat.pow_pos (by decide)
  generalize 10 ^ (300 - places) = greatest at *
  calc w * one + f ≤ 2 * greatest * one + 2 ^ 1 * one :=
        Nat.add_le_add (Nat.mul_le_mul_right one (by omega)) hf
    _ = (2 * greatest + 2 ^ 1) * one := (Nat.add_mul _ _ _).symm
    _ ≤ 4 * greatest * one := Nat.mul_le_mul_right one (by omega)
    _ = 4 * (greatest * one) := Nat.mul_assoc 4 greatest one

include hk

theorem parts_le_pow : w * one + f ≤ 2 ^ (k + 1) * one :=
  calc w * one + f ≤ 4 * (10 ^ (300 - places) * one) := parts_le hdigits hw hf
    _ = 2 * (2 * 10 ^ (300 - places)) * one := by ring
    _ ≤ 2 * 2 ^ k * one := Nat.mul_le_mul_right one
        (Nat.mul_le_mul_left 2 (two_mul_ten_pow_le (by omega) hk))
    _ = 2 ^ (k + 1) * one := by rw [Nat.pow_succ']

theorem parts_mul_le {scale : Nat} (hscale : scale ≤ 2 * 10 ^ places * one) :
    nearest (w * one + f) 1 * scale ≤ 2 ^ (k + 3) * one * one := by
  have hparts := parts_le hdigits hw hf
  have hnearest := nearest_le_two_mul (w * one + f)
  calc nearest (w * one + f) 1 * scale ≤ 8 * (10 ^ (300 - places) * one) * scale :=
        Nat.mul_le_mul_right scale (by omega)
    _ = 8 * (10 ^ (300 - places) * one * scale) := Nat.mul_assoc _ _ _
    _ ≤ 8 * (2 ^ k * one * one) :=
        Nat.mul_le_mul_left 8 (mul_scale_le (by omega) (Nat.le_refl _) hscale hk)
    _ = 2 ^ (k + 3) * one * one := by ring

end

section
variable (form : DecimalForm) (seed : Seed) (index : Int64)

/-- A draw is finite and has no sign. -/
theorem draw_finite (hdigits : form.wholeDigits + form.places ≤ 300) :
    ∃ n fits, form.draw seed index = .finite false n fits := by
  by_cases hplaces : form.places = 0
  · obtain ⟨m, fits, hdraw, -⟩ := draw_whole form seed index hplaces (by omega)
    exact ⟨_, fits, hdraw⟩
  · have hpos := Nat.pos_of_ne_zero hplaces
    obtain ⟨k, hk⟩ : ∃ k, k = 998 := ⟨_, rfl⟩
    obtain ⟨u, hu, hunit, hult⟩ := nextUnit_finite (RandomStream.atIndex seed index)
    obtain ⟨v, hv, hunit', hvlt⟩ := nextUnit_finite (RandomStream.atIndex seed index).nextUnit.2
    obtain ⟨w, hw, hwhole, hwle, -, -⟩ :=
      scaled_finite (show form.wholeDigits ≤ 300 by omega) hu hult
    obtain ⟨scale, hscalefits, hscale, hone, hscalele⟩ :=
      powerOfTen_finite (show form.places ≤ 300 by omega)
    have hscalepow : scale ≤ 2 ^ k * one :=
      hscalele.trans (Nat.mul_le_mul_right one (two_mul_ten_pow_le (by omega) hk))
    -- Beyond 22 places a rounded power of ten scales the fraction, so it need not stay below one.
    obtain ⟨f, hf, hfraction, hfle⟩ := fraction_le_two hscale hone hscalepow hk hpos hv hvlt
    obtain ⟨hsumfits, hadd⟩ := add_unsigned hw hf (by omega) (parts_le_pow hdigits hk hwle hfle)
    obtain ⟨m, fits, hround⟩ := roundTo_unsigned (by omega) hscale hone hsumfits (by omega)
      (parts_mul_le hdigits hk hwle hfle hscalele)
    refine ⟨m, fits, ?_⟩
    rw [draw_eq, if_pos hpos, hunit, hunit', hwhole, hfraction, hadd, hround]

end

theorem plain_write (form : DecimalForm) {n : Nat} (fits : Fits n) :
    Numeral.Plain form.places (form.widths.getD (0, 0)).1 (form.widths.getD (0, 0)).2
      (form.write (.finite false n fits)) := by
  have hplain := plain_fixed fits form.places
  rw [write]
  cases form.widths with
  | none => exact hplain
  | some widths => exact plain_pad hplain

end DecimalForm

namespace RandomDecimal

/-- A call with good indexes and arguments gives digits, with a point if and only if there are
places, and at least as many on both sides as its form asks for: no sign, and no name of an infinity
or of what is not a number. -/
theorem value_numeral {call : Call} {index : Int64} {form : DecimalForm}
    (hindex : call.onlyIndex = .ok index) (hform : DecimalForm.ofCall call = .ok form) :
    ∃ t, value call = .ok t ∧
      Numeral.Plain form.places (form.widths.getD (0, 0)).1 (form.widths.getD (0, 0)).2 t := by
  obtain ⟨n, fits, hdraw⟩ :=
    form.draw_finite call.seed index (DecimalForm.digits_le_of_ofCall hform)
  have hvalue : value call = .ok (form.write (form.draw call.seed index)) := by
    rw [value, hindex, hform]
    rfl
  rw [hdraw] at hvalue
  exact ⟨_, hvalue, form.plain_write fits⟩

theorem value_numeral_of_most_digits :
    ∃ t, value (plainCall ["250".toList, "50".toList, "0".toList, "1024".toList] 1) = .ok t ∧
      Numeral.Plain 50 0 1024 t := by
  have hindex : (plainCall ["250".toList, "50".toList, "0".toList, "1024".toList] 1).onlyIndex =
      .ok 1 := rfl
  have hform : DecimalForm.ofCall
      (plainCall ["250".toList, "50".toList, "0".toList, "1024".toList] 1) =
        .ok ⟨250, 50, some (0, 1024)⟩ := rfl
  exact value_numeral hindex hform

end RandomDecimal
end Placeholders
