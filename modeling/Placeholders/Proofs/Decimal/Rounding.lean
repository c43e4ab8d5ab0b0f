import Placeholders.Decimal.Rounding
import Placeholders.Proofs.Binary64.Power

/-!
Rounding to decimal places keeps numbers finite, and up to 22 places, as far as the powers of ten
are numbers themselves, the result is the number nearest to some decimal with these places.
-/

namespace Placeholders
namespace Decimal

open Binary64

theorem powerOfTen_natCast (places : Nat) : powerOfTen places = (ofNat 10).power places := by
  rw [powerOfTen, Int.natAbs_natCast, if_neg (Int.not_lt.mpr (Int.natCast_nonneg places))]

/-- So many roundings do not double a number. -/
theorem roundings_le : ∀ e ≤ 300, (2 ^ 53 + 1) ^ e ≤ 2 * 2 ^ (53 * e) := by
  decide +kernel

theorem two_mul_ten_pow_le {e k : Nat} (he : e ≤ 300) (hk : k = 998) : 2 * 10 ^ e ≤ 2 ^ k := by
  subst hk
  exact (Nat.mul_le_mul_left 2 (Nat.pow_le_pow_right (by decide) he)).trans (by decide +kernel)

theorem powerOfTen_finite {places : Nat} (hplaces : places ≤ 300) :
    ∃ scale fits, powerOfTen places = .finite false scale fits ∧ one ≤ scale ∧
      scale ≤ 2 * 10 ^ places * one := by
  have hten : PowerOf 10 1 0 (ofNat 10) := by
    obtain ⟨fits, h⟩ := ofNat_finite (n := 10) (by decide)
    refine ⟨10 * one, fits, h, Nat.le_mul_of_pos_left one (by decide), ?_⟩
    generalize one = u
    simp
  obtain ⟨k, hk⟩ : ∃ k, k = 998 := ⟨_, rfl⟩
  have hbound : (2 ^ 53 + 1) ^ places * 10 ^ places ≤ 2 ^ (53 * places) * 2 ^ k :=
    calc (2 ^ 53 + 1) ^ places * 10 ^ places ≤ 2 * 2 ^ (53 * places) * 10 ^ places :=
          Nat.mul_le_mul_right _ (roundings_le places hplaces)
      _ = 2 ^ (53 * places) * (2 * 10 ^ places) := by ring
      _ ≤ 2 ^ (53 * places) * 2 ^ k := Nat.mul_le_mul_left _ (two_mul_ten_pow_le hplaces hk)
  obtain ⟨scale, fits, hscale, hone, hle⟩ := powerOf_power hten (by decide) (by omega) hbound
  refine ⟨scale, fits, (powerOfTen_natCast places).trans hscale, hone, ?_⟩
  refine Nat.le_of_mul_le_mul_left ?_ (Nat.two_pow_pos (53 * places))
  calc 2 ^ (53 * places) * scale ≤ (2 ^ 53 + 1) ^ places * 10 ^ places * one := hle
    _ ≤ 2 * 2 ^ (53 * places) * 10 ^ places * one :=
        Nat.mul_le_mul_right one (Nat.mul_le_mul_right _ (roundings_le places hplaces))
    _ = 2 ^ (53 * places) * (2 * 10 ^ places * one) := by ring

theorem powerOfTen_eq : ∀ places : Nat, places ≤ 22 →
    powerOfTen places = ofQuanta false (10 ^ places * one) := by
  decide +kernel

theorem powerOfTen_exact {places : Nat} (hplaces : places ≤ 22) :
    ∃ fits, powerOfTen places = .finite false (10 ^ places * one) fits := by
  obtain ⟨scale, fits, hscale, -⟩ := powerOfTen_finite (hplaces.trans (by decide))
  have heq := powerOfTen_eq places hplaces
  rw [ofQuanta] at heq
  split at heq
  · next hfits => exact ⟨hfits, heq⟩
  · rw [hscale] at heq
    exact Binary64.noConfusion heq

/-- A negative power is the rounded inverse of the positive one. -/
theorem powerOfTen_neg {places scale : Nat} (hpos : 0 < places) {fits : Fits scale}
    (hscale : powerOfTen places = .finite false scale fits) (hone : one ≤ scale) :
    ∃ fits', powerOfTen (-places) = .finite false (nearest (1 * one * one) scale) fits' := by
  obtain ⟨honefits, hofNat⟩ := ofNat_finite (n := 1) (by decide)
  have hscalepos : 0 < scale := Nat.lt_of_lt_of_le Binary64.one_pos hone
  have hinverse : powerOfTen (-places) = ofNat 1 / powerOfTen places := by
    rw [powerOfTen_natCast, powerOfTen, Int.natAbs_neg, Int.natAbs_natCast, if_pos (by omega)]
  have hnum : 1 * one * one ≤ 2 ^ 0 * one * scale := by
    rw [Nat.pow_zero]
    exact Nat.mul_le_mul_left _ hone
  obtain ⟨fits', hratio⟩ := ofRatio_finite (by decide) hscalepos hnum (false ^^ false)
  refine ⟨fits', ?_⟩
  rw [hinverse, hofNat, hscale, div_eq honefits fits false false hscalepos.ne', hratio,
    Bool.xor_false]

theorem roundTo_eq {x : Binary64} {places : Nat} (hplaces : places ≤ 300) :
    roundTo x places =
      if ((x * powerOfTen places + half).floor / powerOfTen places).isZero then .zero false
      else (x * powerOfTen places + half).floor / powerOfTen places := by
  have hmin : min (places : Int) maxExponent = places :=
    Int.min_eq_left (Int.ofNat_le.mpr (hplaces.trans (by decide)))
  rw [roundTo, hmin]

section
variable {x : Binary64} {places k m scale : Nat} {negative : Bool}

theorem roundTo_of_floor (hplaces : places ≤ 300) {fits : Fits scale} {hm : Fits (m * one)}
    (hscale : powerOfTen places = .finite false scale fits) (hone : one ≤ scale)
    (hfloor : (x * powerOfTen places + half).floor = .finite negative (m * one) hm)
    (hk : k < 1024) (hmk : m ≤ 2 ^ k) :
    ∃ fits', roundTo x places = .finite (negative && nearest (m * one * one) scale != 0)
      (nearest (m * one * one) scale) fits' := by
  have hpos : 0 < scale := Nat.lt_of_lt_of_le Binary64.one_pos hone
  have hnum : m * one * one ≤ 2 ^ k * one * scale :=
    Nat.mul_le_mul (Nat.mul_le_mul_right one hmk) hone
  obtain ⟨fits', hratio⟩ := ofRatio_finite hk hpos hnum (negative ^^ false)
  refine ⟨fits', ?_⟩
  rw [roundTo_eq hplaces, hfloor, hscale, div_eq hm fits negative false hpos.ne', hratio,
    Bool.xor_false]
  generalize nearest (m * one * one) scale = n at *
  by_cases hzero : n = 0
  · subst hzero
    simp [isZero, zero]
  · simp [isZero, hzero]

/-- As long as the product with the power of ten is small, an unsigned number stays one. -/
theorem roundTo_unsigned {n : Nat} (hplaces : places ≤ 300) {fits : Fits scale}
    (hscale : powerOfTen places = .finite false scale fits) (hone : one ≤ scale) (hn : Fits n)
    (hk : k + 1 < 1024) (hproduct : n * scale ≤ 2 ^ k * one * one) :
    ∃ m fits', roundTo (.finite false n hn) places = .finite false m fits' := by
  obtain ⟨hmulfits, hmul⟩ := mul_finite hn fits false (by omega) hproduct
  obtain ⟨hhalffits, hhalf⟩ := half_finite
  have hsmall : nearest (n * scale) one + oneHalf ≤ 2 ^ (k + 1) * one := by
    have hle := nearest_le_pow Binary64.one_pos hproduct
    have htwo := two_mul_oneHalf_le k
    rw [Nat.pow_succ', Nat.mul_assoc 2]
    omega
  obtain ⟨haddfits, hadd⟩ := add_unsigned hmulfits hhalffits hk hsmall
  rw [← Nat.mul_one (2 ^ (k + 1) * one)] at hsmall
  obtain ⟨m, hm, hfloor, hmk, -⟩ :=
    floor_finite hk (nearest_le_pow Nat.one_pos hsmall) false haddfits
  have hwhole : (Binary64.finite false n hn * powerOfTen places + half).floor =
      .finite false (m * one) hm := by rw [hscale, hmul, hhalf, hadd, hfloor]
  obtain ⟨fits', hround⟩ := roundTo_of_floor hplaces hscale hone hwhole hk hmk
  rw [Bool.false_and] at hround
  exact ⟨_, fits', hround⟩

theorem mul_scale_le {n : Nat} (hplaces : places ≤ 300) (hn : n ≤ 10 ^ (300 - places) * one)
    (hscale : scale ≤ 2 * 10 ^ places * one) (hk : k = 998) : n * scale ≤ 2 ^ k * one * one := by
  have hpowers : 2 * (10 ^ (300 - places) * 10 ^ places) ≤ 2 ^ k := by
    rw [← Nat.pow_add]
    exact two_mul_ten_pow_le (by omega) hk
  calc n * scale ≤ 10 ^ (300 - places) * one * (2 * 10 ^ places * one) := Nat.mul_le_mul hn hscale
    _ = 2 * (10 ^ (300 - places) * 10 ^ places) * one * one := by ring
    _ ≤ 2 ^ k * one * one := Nat.mul_le_mul_right one (Nat.mul_le_mul_right one hpowers)

/-- The product, the sum and the quotient all stay finite. -/
theorem roundTo_finite {n : Nat} (negative : Bool) (hplaces : places ≤ 300) (hn : Fits n)
    (hlt : n < 10 ^ (300 - places) * one) : ∃ sign m fits, roundTo (.finite negative n hn) places =
      .finite sign m fits ∧ (places ≤ 22 → ∃ c, nearest (c * one) (10 ^ places) = m) := by
  obtain ⟨scale, fits, hscale, hone, hle⟩ := powerOfTen_finite hplaces
  obtain ⟨k, hk⟩ : ∃ k, k = 998 := ⟨_, rfl⟩
  have hproduct : n * scale ≤ 2 ^ k * one * one := mul_scale_le hplaces hlt.le hle hk
  have hbounded : k + 1 < 1024 := by omega
  obtain ⟨hhalffits, hhalf⟩ := half_finite
  have hsmall : oneHalf ≤ 2 ^ k * one := by
    have := two_mul_oneHalf_le k
    omega
  obtain ⟨hfits, hmul⟩ := mul_finite hn fits negative (by omega) hproduct
  obtain ⟨sign, l, hl, hadd, hlk⟩ := add_finite hfits hhalffits negative false hbounded
    (nearest_le_pow Binary64.one_pos hproduct) hsmall
  obtain ⟨m, hm, hfloor, hmk, -⟩ := floor_finite hbounded hlk sign hl
  have hwhole : (Binary64.finite negative n hn * powerOfTen places + half).floor =
      .finite sign (m * one) hm := by
    rw [hscale, hmul, hhalf, hadd, hfloor]
  obtain ⟨fits', hround⟩ := roundTo_of_floor hplaces hscale hone hwhole hbounded hmk
  refine ⟨_, _, fits', hround, fun hexact => ⟨m, ?_⟩⟩
  obtain ⟨fits'', hscale'⟩ := powerOfTen_exact hexact
  have hscale : scale = 10 ^ places * one := by
    rw [hscale] at hscale'
    exact (Binary64.finite.inj hscale').2
  have hten : 0 < 10 ^ places := Nat.pow_pos (by decide)
  rw [hscale]
  apply nearest_congr hten (Nat.mul_pos hten Binary64.one_pos)
  generalize one = u
  ring

end

end Decimal
end Placeholders
