import Placeholders.Function.RandomDecimal
import Placeholders.Proofs.Decimal.Stability

/-!
What a draw can be: the number nearest to a multiple of its last place, or a whole number if there
are no places. With at most 15 digits, or without places, rounding it again keeps it.
-/

namespace Placeholders
namespace DecimalForm

open Binary64 Decimal

theorem nextUnit_finite (s : RandomStream) :
    ∃ u fits, s.nextUnit.1 = .finite false u fits ∧ u < one := by
  obtain ⟨e, he⟩ : ∃ e, e = 1021 := ⟨_, rfl⟩
  have hone : one = 2 ^ 53 * 2 ^ e := by
    rw [← Nat.pow_add]
    exact one_eq_pow (by omega)
  have hword : (s.next.1 >>> 11).toNat < 2 ^ 53 := by
    have hlt := s.next.1.toNat_lt
    rw [UInt64.toNat_shiftRight, Nat.shiftRight_eq_div_pow]
    exact Nat.div_lt_of_lt_mul hlt
  have hunit : s.nextUnit.1 = ofRatio false ((s.next.1 >>> 11).toNat * 2 ^ e) 1 := by
    unfold RandomStream.nextUnit
    rw [← he]
    simp only [Nat.pow_eq]
  generalize (s.next.1 >>> 11).toNat = n at *
  have hlt : n * 2 ^ e < one := by
    rw [hone]
    exact Nat.mul_lt_mul_of_pos_right hword (Nat.two_pow_pos e)
  have hnearest : nearest (n * 2 ^ e) 1 = n * 2 ^ e :=
    nearest_eq_self Nat.one_pos (spacing_dvd_mul ⟨e, rfl⟩ hword.le) (Nat.mul_one _).symm
  have hle : n * 2 ^ e ≤ 2 ^ 0 * one * 1 := by omega
  have hratio := ofRatio_finite (by decide) Nat.one_pos hle false
  rw [hnearest, ← hunit] at hratio
  obtain ⟨fits, hratio⟩ := hratio
  exact ⟨n * 2 ^ e, fits, hratio, hlt⟩

/-- The product with a scale is not above the scale, and the floor is taken of it. -/
theorem scaled_eq {digits u scale k : Nat} {hscalefits : Fits scale}
    (hscale : powerOfTen digits = .finite false scale hscalefits) (hle : scale ≤ 2 ^ k * one)
    (hk : k < 1024) (fits : Fits u) (hu : u < one) : nearest (scale * u) one ≤ scale ∧
      ∃ fits', scaled digits (.finite false u fits) =
        .finite false (nearest (scale * u) one / one * one) fits' := by
  have hproduct : nearest (scale * u) one ≤ scale :=
    nearest_le Binary64.one_pos hscalefits.2 (Nat.mul_le_mul_left scale hu.le)
  have hnum : scale * u ≤ 2 ^ k * one * one := Nat.mul_le_mul hle hu.le
  obtain ⟨hproductfits, hmul⟩ := mul_finite hscalefits fits false hk hnum
  obtain ⟨w, hw, hfloor, -, hweq⟩ :=
    floor_finite hk (hproduct.trans hle) false hproductfits
  rw [if_neg Bool.false_ne_true] at hweq
  subst hweq
  refine ⟨hproduct, hw, ?_⟩
  rw [scaled, hscale, hmul, hfloor]

/-- A scaled number is whole, and not above the scale. -/
theorem scaled_finite {digits u : Nat} (hdigits : digits ≤ 300) (fits : Fits u) (hu : u < one) :
    ∃ w fits', scaled digits (.finite false u fits) = .finite false (w * one) fits' ∧
      w ≤ 2 * 10 ^ digits ∧ (digits ≤ 22 → w ≤ 10 ^ digits) ∧ (digits = 0 → w = 0) := by
  obtain ⟨scale, hscalefits, hscale, -, hle⟩ := powerOfTen_finite hdigits
  obtain ⟨k, hk⟩ : ∃ k, k = 998 := ⟨_, rfl⟩
  have hscalepow : scale ≤ 2 ^ k * one :=
    hle.trans (Nat.mul_le_mul_right one (two_mul_ten_pow_le hdigits hk))
  obtain ⟨hproduct, hw, heq⟩ := scaled_eq hscale hscalepow (by omega) fits hu
  have hlimit {m : Nat} (hm : scale ≤ m * one) : nearest (scale * u) one / one ≤ m :=
    Nat.le_of_mul_le_mul_right ((Nat.div_mul_le_self _ _).trans (hproduct.trans hm))
      Binary64.one_pos
  refine ⟨_, hw, heq, hlimit hle, ?_, ?_⟩
  · intro hfew
    obtain ⟨hscalefits', hscale'⟩ := powerOfTen_exact hfew
    rw [hscale] at hscale'
    exact hlimit (Binary64.finite.inj hscale').2.le
  · intro hzero
    subst hzero
    obtain ⟨hscalefits', hscale'⟩ := powerOfTen_exact (Nat.zero_le 22)
    rw [hscale] at hscale'
    have hunit : scale = 10 ^ 0 * one := (Binary64.finite.inj hscale').2
    have hsame : nearest (scale * u) one = u := by
      apply nearest_eq_self Binary64.one_pos fits.2
      rw [hunit, Nat.pow_zero]
      generalize one = v
      ring
    rw [hsame]
    exact Nat.div_eq_of_lt hu

/-- The rounded inverse of a power of ten takes the power to one, or to the number below. -/
theorem inverse_mul_le : ∀ places ≤ 22,
    nearest (nearest (1 * one) (10 ^ places) * 10 ^ places) 1 ≤ one := by
  decide +kernel

theorem inverse_exact {places : Nat} (hpos : 0 < places) (hplaces : places ≤ 22) :
    ∃ fits, powerOfTen (-places) = .finite false (nearest (1 * one) (10 ^ places)) fits := by
  obtain ⟨hscalefits, hscale⟩ := powerOfTen_exact hplaces
  have hone : one ≤ 10 ^ places * one := Nat.le_mul_of_pos_left one (Nat.pow_pos (by decide))
  have hinverse := powerOfTen_neg hpos hscale hone
  rw [nearest_scale] at hinverse
  exact hinverse

theorem fraction_finite {places f : Nat} (hpos : 0 < places) (hplaces : places ≤ 22)
    (fits : Fits (f * one)) (hf : f ≤ 10 ^ places) :
    ∃ n fits', powerOfTen (-places) * .finite false (f * one) fits = .finite false n fits' ∧
      n ≤ one := by
  obtain ⟨hinversefits, hinverse⟩ := inverse_exact hpos hplaces
  have hten : 0 < 10 ^ places := Nat.pow_pos (by decide)
  have hle := inverse_mul_le places hplaces
  rw [← nearest_product] at hle
  have hfone : f * one ≤ 10 ^ places * one := Nat.mul_le_mul_right one hf
  have hsmall : nearest (1 * one) (10 ^ places) ≤ 2 ^ 0 * one := by
    apply nearest_le_pow hten
    rw [Nat.pow_zero]
    exact Nat.le_mul_of_pos_right _ hten
  have hnum : nearest (1 * one) (10 ^ places) * (f * one) ≤ 2 ^ 74 * one * one :=
    calc nearest (1 * one) (10 ^ places) * (f * one) ≤ 2 ^ 0 * one * (10 ^ 22 * one) :=
          Nat.mul_le_mul hsmall (Nat.mul_le_mul_right one
            (hf.trans (Nat.pow_le_pow_right (by decide) hplaces)))
      _ = 2 ^ 0 * 10 ^ 22 * one * one := by ring
      _ ≤ 2 ^ 74 * one * one :=
          Nat.mul_le_mul_right one (Nat.mul_le_mul_right one (by decide))
  obtain ⟨fits', hmul⟩ := mul_finite hinversefits fits false (by decide) hnum
  refine ⟨_, fits', ?_, le_trans (nearest_mono Binary64.one_pos Binary64.one_pos ?_) hle⟩
  · rw [hinverse, hmul]
  · exact Nat.mul_le_mul_right one (Nat.mul_le_mul_left _ hfone)

section
variable (form : DecimalForm) (seed : Seed) (index : Int64)

/-- The number that is rounded at the end of a draw. -/
theorem draw_eq : form.draw seed index =
    roundTo (if 0 < form.places then
        scaled form.wholeDigits (RandomStream.atIndex seed index).nextUnit.1 +
          powerOfTen (-form.places) *
            scaled form.places (RandomStream.atIndex seed index).nextUnit.2.nextUnit.1
      else scaled form.wholeDigits (RandomStream.atIndex seed index).nextUnit.1) form.places := by
  simp only [draw]

theorem draw_digits_le {wholeDigits places w : Nat} (hdigits : wholeDigits + places ≤ 15)
    (hpos : 0 < places) (hw : w ≤ 10 ^ wholeDigits) (hzero : wholeDigits = 0 → w = 0) :
    (w + 1) * 10 ^ places ≤ 10 ^ 15 + 10 ^ 14 := by
  by_cases hnone : wholeDigits = 0
  · rw [hzero hnone, Nat.zero_add, Nat.one_mul]
    have := Nat.pow_le_pow_right (n := 10) (by decide) (show places ≤ 15 by omega)
    omega
  · have hall := Nat.pow_le_pow_right (n := 10) (by decide) hdigits
    have hfew := Nat.pow_le_pow_right (n := 10) (by decide) (show places ≤ 14 by omega)
    have hmul := Nat.mul_le_mul_right (10 ^ places) hw
    rw [← Nat.pow_add] at hmul
    rw [Nat.succ_mul]
    omega

theorem sum_le {w n places : Nat} (hn : n ≤ one)
    (hdigits : (w + 1) * 10 ^ places ≤ 10 ^ 15 + 10 ^ 14) :
    w * one + n ≤ 2 ^ 50 * one ∧
      nearest (w * one + n) 1 * 10 ^ places ≤ (10 ^ 15 + 10 ^ 14) * one := by
  have hsmall : w + 1 ≤ 2 ^ 50 := by
    have := Nat.le_mul_of_pos_right (w + 1) (Nat.pow_pos (n := places) (show 0 < 10 by decide))
    omega
  have hsum : w * one + n ≤ (w + 1) * one := by
    rw [Nat.succ_mul]
    omega
  have hle : nearest (w * one + n) 1 ≤ (w + 1) * one :=
    nearest_le Nat.one_pos (spacing_dvd_mul one_isPow (by omega)) (by omega)
  constructor
  · exact hsum.trans (Nat.mul_le_mul_right one hsmall)
  · calc nearest (w * one + n) 1 * 10 ^ places ≤ (w + 1) * one * 10 ^ places :=
          Nat.mul_le_mul_right _ hle
      _ = (w + 1) * 10 ^ places * one := by ring
      _ ≤ (10 ^ 15 + 10 ^ 14) * one := Nat.mul_le_mul_right one hdigits

theorem draw_few (hplaces : 0 < form.places) (hdigits : form.wholeDigits + form.places ≤ 15) :
    ∃ m fits, form.draw seed index =
      .finite false (nearest (m * one) (10 ^ form.places)) fits ∧ m < 2 ^ 50 := by
  obtain ⟨u, hu, hunit, hult⟩ := nextUnit_finite (RandomStream.atIndex seed index)
  obtain ⟨v, hv, hunit', hvlt⟩ := nextUnit_finite (RandomStream.atIndex seed index).nextUnit.2
  obtain ⟨w, hw, hwhole, -, hwle, hwzero⟩ :=
    scaled_finite (show form.wholeDigits ≤ 300 by omega) hu hult
  obtain ⟨f, hf, hfraction, -, hfle, -⟩ :=
    scaled_finite (show form.places ≤ 300 by omega) hv hvlt
  obtain ⟨n, hn, hproduct, hnle⟩ := fraction_finite hplaces (by omega) hf (hfle (by omega))
  obtain ⟨hnum, hbound⟩ := sum_le hnle (draw_digits_le hdigits hplaces (hwle (by omega)) hwzero)
  obtain ⟨hl, hadd⟩ := add_unsigned hw hn (by decide) hnum
  obtain ⟨fits, hround⟩ := roundTo_positive (k := 50) (by omega) (by decide) hl
    (hbound.trans (Nat.mul_le_mul_right one (by decide)))
  refine ⟨_, fits, ?_, Nat.lt_of_le_of_lt (multiple_le (by decide) hbound) (by decide)⟩
  rw [draw_eq, if_pos hplaces, hunit, hunit', hwhole, hfraction, hproduct, hadd, hround]

/-- Without places a draw is a whole number. -/
theorem draw_whole (hplaces : form.places = 0) (hdigits : form.wholeDigits ≤ 300) :
    ∃ m fits, form.draw seed index = .finite false (m * one) fits ∧ Settled m ∧
      ∃ k < 1023, m * one ≤ 2 ^ k * one := by
  obtain ⟨u, hu, hunit, hult⟩ := nextUnit_finite (RandomStream.atIndex seed index)
  obtain ⟨w, hw, hwhole, hwle, -, -⟩ := scaled_finite hdigits hu hult
  obtain ⟨k, hk⟩ : ∃ k, k = 998 := ⟨_, rfl⟩
  have hwpow : w * one * 10 ^ 0 ≤ 2 ^ k * one := by
    rw [Nat.pow_zero, Nat.mul_one (w * one)]
    exact Nat.mul_le_mul_right one (hwle.trans (two_mul_ten_pow_le hdigits hk))
  have hround := roundTo_positive (by decide) (by omega) hw hwpow
  rw [nearest_whole (spacing_dvd_multiple (w * one) 0)] at hround
  obtain ⟨fits, hround⟩ := hround
  refine ⟨multiple (w * one) 0, fits, ?_, settled_multiple hw.2, k + 1, by omega, ?_⟩
  · rw [draw_eq, if_neg (by omega), hunit, hwhole, hplaces, hround]
  · have hhalf := two_mul_oneHalf_le k
    have hsum : w * one + oneHalf ≤ 2 ^ (k + 1) * one * 1 := by
      rw [Nat.pow_zero, Nat.mul_one (w * one)] at hwpow
      rw [Nat.pow_succ', Nat.mul_assoc 2]
      omega
    rw [multiple_whole hw.2]
    exact (Nat.div_mul_le_self _ _).trans (nearest_le_pow Nat.one_pos hsum)

theorem nearest_mul_pow_le {m places : Nat} (hplaces : places ≤ 22) (hm : m < 2 ^ 50) :
    nearest (m * one) (10 ^ places) * 10 ^ places ≤ 2 ^ 124 * one := by
  have hten : 0 < 10 ^ places := Nat.pow_pos (by decide)
  have hle : nearest (m * one) (10 ^ places) ≤ 2 ^ 50 * one := by
    apply nearest_le_pow hten
    exact (Nat.mul_le_mul_right one hm.le).trans (Nat.le_mul_of_pos_right _ hten)
  have hpow : 10 ^ places ≤ 2 ^ 74 := (Nat.pow_le_pow_right (by decide) hplaces).trans (by decide)
  calc nearest (m * one) (10 ^ places) * 10 ^ places ≤ 2 ^ 50 * one * 2 ^ 74 :=
        Nat.mul_le_mul hle hpow
    _ = 2 ^ 124 * one := by ring

/-- A draw is kept by a second rounding, if it has no places or at most 15 digits. -/
theorem draw_kept (hdigits : form.wholeDigits + form.places ≤ 300)
    (hfew : form.places = 0 ∨ form.wholeDigits + form.places ≤ 15) :
    ∃ m fits, form.draw seed index =
        .finite false (nearest (m * one) (10 ^ form.places)) fits ∧
      form.places ≤ 22 ∧ Kept m form.places ∧
      ∃ k < 1023, nearest (m * one) (10 ^ form.places) * 10 ^ form.places ≤ 2 ^ k * one := by
  by_cases hplaces : form.places = 0
  · obtain ⟨m, fits, hdraw, hsettled, k, hk, hbound⟩ :=
      draw_whole form seed index hplaces (by omega)
    have hwhole := nearest_whole fits.2
    rw [hplaces]
    refine ⟨m, by rw [hwhole]; exact fits, ?_, by decide, kept_whole fits.2 hsettled, k, hk, ?_⟩
    · rw [hdraw]
      simp only [hwhole]
    · rw [hwhole, Nat.pow_zero, Nat.mul_one (m * one)]
      exact hbound
  · obtain ⟨m, fits, hdraw, hm⟩ :=
      draw_few form seed index (Nat.pos_of_ne_zero hplaces) (hfew.resolve_left hplaces)
    have hfew : form.places ≤ 22 := by omega
    exact ⟨m, fits, hdraw, hfew, kept_of_lt hfew hm, 124, by decide, nearest_mul_pow_le hfew hm⟩

end

end DecimalForm
end Placeholders
