import Placeholders.Proofs.Binary64.Interval
import Placeholders.Proofs.Decimal.Rounding

/-!
Rounding a rounded number again, and rounding its negation. Up to 15 digits, and without places,
both give back the number. With more digits the product with the power of ten can be so large that
one half cannot be added to it exactly.
-/

namespace Placeholders
namespace Decimal

open Binary64

/-- The multiple of `10 ^ -places` that stands for `n` quanta after rounding. -/
def multiple (n places : Nat) : Nat :=
  nearest (nearest (n * 10 ^ places) 1 + oneHalf) 1 / one

/-- The same below zero, where a floor goes away from zero. -/
def multipleBelow (n places : Nat) : Nat :=
  (nearest (nearest (n * 10 ^ places) 1 - oneHalf) 1 + one - 1) / one

/-- The rounding of `multiple * 10 ^ -places` is rounded to itself on both sides of zero. -/
structure Kept (m places : Nat) : Prop where
  positive : multiple (nearest (m * one) (10 ^ places)) places = m
  beyond_half : 0 < m → oneHalf < nearest (nearest (m * one) (10 ^ places) * 10 ^ places) 1
  negative : 0 < m → multipleBelow (nearest (m * one) (10 ^ places)) places = m

section
variable {n places k : Nat}

theorem nearest_scale (m places : Nat) :
    nearest (m * one * one) (10 ^ places * one) = nearest (m * one) (10 ^ places) := by
  have hten : 0 < 10 ^ places := Nat.pow_pos (by decide)
  apply nearest_congr (Nat.mul_pos hten Binary64.one_pos) hten
  generalize one = u
  ring

theorem nearest_product (n places : Nat) :
    nearest (n * (10 ^ places * one)) one = nearest (n * 10 ^ places) 1 := by
  apply nearest_congr Binary64.one_pos Nat.one_pos
  generalize one = u
  ring

theorem mul_scale (hplaces : places ≤ 22) (hk : k < 1024) (hn : Fits n)
    (hbound : n * 10 ^ places ≤ 2 ^ k * one) (negative : Bool) :
    ∃ fits, Binary64.finite negative n hn * powerOfTen places =
      .finite negative (nearest (n * 10 ^ places) 1) fits := by
  obtain ⟨hscalefits, hscale⟩ := powerOfTen_exact hplaces
  have hnum : n * (10 ^ places * one) ≤ 2 ^ k * one * one := by
    rw [← Nat.mul_assoc]
    exact Nat.mul_le_mul_right one hbound
  have hmul := mul_finite hn hscalefits negative hk hnum
  rw [nearest_product] at hmul
  obtain ⟨fits, hmul⟩ := hmul
  exact ⟨fits, by rw [hscale, hmul]⟩

theorem roundTo_of_sum (hplaces : places ≤ 22) (hk : k < 1024) {x : Binary64} {l : Nat}
    {negative : Bool} {fits : Fits l} (hl : l ≤ 2 ^ k * one)
    (hsum : x * powerOfTen places + half = .finite negative l fits) :
    ∃ m fits', m = (if negative then (l + one - 1) / one else l / one) ∧
      roundTo x places = .finite (negative && nearest (m * one) (10 ^ places) != 0)
        (nearest (m * one) (10 ^ places)) fits' := by
  obtain ⟨hscalefits, hscale⟩ := powerOfTen_exact hplaces
  have hone : one ≤ 10 ^ places * one := Nat.le_mul_of_pos_left one (Nat.pow_pos (by decide))
  obtain ⟨m, hm, hfloor, hmk, hmeq⟩ := floor_finite hk hl negative fits
  rw [← hsum] at hfloor
  have hround := roundTo_of_floor (hplaces.trans (by decide)) hscale hone hfloor hk hmk
  rw [nearest_scale] at hround
  obtain ⟨fits', hround⟩ := hround
  exact ⟨m, fits', hmeq, hround⟩

theorem roundTo_positive (hplaces : places ≤ 22) (hk : k + 1 < 1024) (hn : Fits n)
    (hbound : n * 10 ^ places ≤ 2 ^ k * one) : ∃ fits, roundTo (.finite false n hn) places =
      .finite false (nearest (multiple n places * one) (10 ^ places)) fits := by
  obtain ⟨hproductfits, hmul⟩ := mul_scale hplaces (by omega) hn hbound false
  obtain ⟨hhalffits, hhalf⟩ := half_finite
  have hproduct : nearest (n * 10 ^ places) 1 ≤ 2 ^ k * one := by
    apply nearest_le_pow Nat.one_pos
    omega
  have hsum : nearest (n * 10 ^ places) 1 + oneHalf ≤ 2 ^ (k + 1) * one := by
    have := two_mul_oneHalf_le k
    rw [Nat.pow_succ', Nat.mul_assoc 2]
    omega
  obtain ⟨hsumfits, hsumeq⟩ := add_unsigned hproductfits hhalffits hk hsum
  rw [← Nat.mul_one (2 ^ (k + 1) * one)] at hsum
  have hadd : Binary64.finite false n hn * powerOfTen places + half =
      .finite false (nearest (nearest (n * 10 ^ places) 1 + oneHalf) 1) hsumfits := by
    rw [hmul, hhalf, hsumeq]
  obtain ⟨m, fits, hm, hround⟩ :=
    roundTo_of_sum hplaces hk (nearest_le_pow Nat.one_pos hsum) hadd
  rw [if_neg Bool.false_ne_true, ← multiple] at hm
  rw [Bool.false_and] at hround
  subst hm
  exact ⟨fits, hround⟩

theorem roundTo_negative (hplaces : places ≤ 22) (hk : k < 1024) (hn : Fits n)
    (hbound : n * 10 ^ places ≤ 2 ^ k * one) (hhalf : oneHalf < nearest (n * 10 ^ places) 1) :
    ∃ fits, roundTo (.finite true n hn) places =
      .finite (nearest (multipleBelow n places * one) (10 ^ places) != 0)
        (nearest (multipleBelow n places * one) (10 ^ places)) fits := by
  obtain ⟨hproductfits, hmul⟩ := mul_scale hplaces hk hn hbound true
  obtain ⟨hhalffits, heq⟩ := half_finite
  have hproduct : nearest (n * 10 ^ places) 1 ≤ 2 ^ k * one := by
    apply nearest_le_pow Nat.one_pos
    omega
  have hdifference : nearest (n * 10 ^ places) 1 - oneHalf ≤ 2 ^ k * one * 1 := by omega
  obtain ⟨hsumfits, hratio⟩ := ofRatio_finite hk Nat.one_pos hdifference true
  have hadd : Binary64.finite true n hn * powerOfTen places + half =
      .finite true (nearest (nearest (n * 10 ^ places) 1 - oneHalf) 1) hsumfits := by
    rw [hmul, heq, add_eq, addFinite, if_neg (by decide), if_neg (by omega),
      if_neg (by omega), hratio]
  obtain ⟨m, fits, hm, hround⟩ :=
    roundTo_of_sum hplaces hk (nearest_le_pow Nat.one_pos hdifference) hadd
  rw [if_pos rfl, ← multipleBelow] at hm
  rw [Bool.true_and] at hround
  subst hm
  exact ⟨fits, hround⟩

theorem mul_one_eq (m : Nat) : m * one = 2 * m * oneHalf := by
  rw [one_eq_two_mul]
  ring

theorem multiple_le {bound : Nat} (hbound : bound < 2 ^ 52)
    (h : n * 10 ^ places ≤ bound * one) : multiple n places ≤ bound := by
  have htwo := one_eq_two_mul
  have hmul := mul_one_eq bound
  have hproduct : nearest (n * 10 ^ places) 1 ≤ bound * one :=
    nearest_le Nat.one_pos (spacing_dvd_mul one_isPow (by omega)) (by omega)
  have hsum : nearest (nearest (n * 10 ^ places) 1 + oneHalf) 1 ≤ (2 * bound + 1) * oneHalf := by
    apply nearest_le Nat.one_pos (spacing_dvd_mul oneHalf_isPow (by omega))
    rw [Nat.add_mul]
    omega
  have hlt : multiple n places < bound + 1 := by
    rw [multiple, Nat.div_lt_iff_lt_mul Binary64.one_pos, Nat.succ_mul]
    rw [Nat.add_mul] at hsum
    have hpos := Binary64.one_pos
    omega
  omega

end

section
variable {m n places : Nat}

/-- Two roundings of a number with at most 15 digits move it by less than a quarter. -/
theorem product_near (hplaces : places ≤ 22) (hm : m < 2 ^ 50) :
    4 * nearest (nearest (m * one) (10 ^ places) * 10 ^ places) 1 ≤ 4 * (m * one) + one ∧
      4 * (m * one) ≤ 4 * nearest (nearest (m * one) (10 ^ places) * 10 ^ places) 1 + one := by
  have hten : 0 < 10 ^ places := Nat.pow_pos (by decide)
  by_cases hzero : m = 0
  · subst hzero
    have hquotient : nearest (0 * one) (10 ^ places) = 0 :=
      nearest_eq_self hten (Nat.dvd_zero _) (by rw [Nat.zero_mul, Nat.zero_mul])
    have hproduct : nearest (0 * 10 ^ places) 1 = 0 :=
      nearest_eq_self Nat.one_pos (Nat.dvd_zero _) (by rw [Nat.zero_mul])
    rw [hquotient, hproduct]
    omega
  · have hlarge : 2 ^ 52 * 10 ^ places ≤ one := by
      obtain ⟨u, ⟨j, rfl⟩, hone⟩ := exists_one_eq (k := 126) (by decide)
      calc 2 ^ 52 * 10 ^ places ≤ 2 ^ 52 * 10 ^ 22 :=
            Nat.mul_le_mul_left _ (Nat.pow_le_pow_right (by decide) hplaces)
        _ ≤ 2 ^ 126 := by decide
        _ ≤ one := by
            rw [hone]
            exact Nat.le_mul_of_pos_right _ (Nat.two_pow_pos j)
    have hle := Nat.le_mul_of_pos_left one (Nat.pos_of_ne_zero hzero)
    have hmul := Nat.mul_le_mul_right one (show m ≤ 2 ^ 50 - 1 by omega)
    obtain ⟨hquotient, hquotient'⟩ := nearest_relative_error hten (hlarge.trans hle)
    have hpow := pow_le_one
    generalize nearest (m * one) (10 ^ places) * 10 ^ places = product at *
    have hfull : 2 ^ 52 * 1 ≤ product := by omega
    obtain ⟨hproduct, hproduct'⟩ := nearest_relative_error Nat.one_pos hfull
    generalize m * one = whole at *
    omega

theorem sum_near {product : Nat} (hm : m < 2 ^ 50) (hhigh : 4 * product ≤ 4 * (m * one) + one)
    (hlow : 4 * (m * one) ≤ 4 * product + one) : nearest (product + oneHalf) 1 / one = m := by
  obtain ⟨q, hq, hone⟩ := exists_one_eq (k := 2) (by decide)
  have htwo := one_eq_two_mul
  have hpos := Binary64.one_pos
  have hmul : m * one = 4 * (m * q) := by
    rw [hone]
    ring
  have hbelow : (4 * m + 1) * q ≤ nearest (product + oneHalf) 1 := by
    apply le_nearest Nat.one_pos (spacing_dvd_mul hq (by omega))
    rw [Nat.add_mul, Nat.mul_assoc]
    omega
  have habove : nearest (product + oneHalf) 1 ≤ (4 * m + 3) * q := by
    apply nearest_le Nat.one_pos (spacing_dvd_mul hq (by omega))
    rw [Nat.add_mul, Nat.mul_assoc]
    omega
  rw [Nat.add_mul, Nat.mul_assoc] at hbelow habove
  rw [Nat.div_eq_iff hpos]
  omega

theorem difference_near {product : Nat} (hm : m < 2 ^ 50) (hpos : 0 < m)
    (hhigh : 4 * product ≤ 4 * (m * one) + one) (hlow : 4 * (m * one) ≤ 4 * product + one) :
    oneHalf < product ∧ (nearest (product - oneHalf) 1 + one - 1) / one = m := by
  obtain ⟨q, hq, hone⟩ := exists_one_eq (k := 2) (by decide)
  have htwo := one_eq_two_mul
  have honepos := Binary64.one_pos
  have hmul : m * one = 4 * (m * q) := by
    rw [hone]
    ring
  have hle : q ≤ m * q := Nat.le_mul_of_pos_left q hpos
  have hbelow : (4 * m - 3) * q ≤ nearest (product - oneHalf) 1 := by
    apply le_nearest Nat.one_pos (spacing_dvd_mul hq (by omega))
    rw [Nat.sub_mul, Nat.mul_assoc]
    omega
  have habove : nearest (product - oneHalf) 1 ≤ (4 * m - 1) * q := by
    apply nearest_le Nat.one_pos (spacing_dvd_mul hq (by omega))
    rw [Nat.sub_mul, Nat.mul_assoc]
    omega
  rw [Nat.sub_mul, Nat.mul_assoc] at hbelow habove
  rw [Nat.div_eq_iff honepos]
  omega

theorem kept_of_lt (hplaces : places ≤ 22) (hm : m < 2 ^ 50) : Kept m places := by
  obtain ⟨hhigh, hlow⟩ := product_near hplaces hm
  constructor
  · exact sum_near hm hhigh hlow
  · intro hpos
    exact (difference_near hm hpos hhigh hlow).1
  · intro hpos
    exact (difference_near hm hpos hhigh hlow).2

end

/-- A whole number to which a half can be added, or from which it can be taken, with the floor
unchanged: the sum is exact, a tie that goes to the even side, or lost below the spacing. -/
def Settled (m : Nat) : Prop := m ≤ 2 ^ 52 ∨ m % 2 = 0 ∨ 2 ^ 53 ≤ m

section
variable {m num : Nat}

theorem nearest_tie (heven : m % 2 = 0) (hlow : 2 ^ 52 * one ≤ num) (hhigh : num < 2 ^ 53 * one)
    (hbelow : 2 * (m * one) ≤ 2 * num + one) (habove : 2 * num ≤ 2 * (m * one) + one) :
    nearest num 1 = m * one := by
  have hspacing : spacing (num / 1) = one := by
    rw [Nat.div_one]
    exact spacing_eq_of one_isPow (.inr hlow) hhigh
  have hunit : 1 * one = one := Nat.one_mul one
  apply nearest_eq_mul Nat.one_pos hspacing
  all_goals
    rw [hunit]
    omega

theorem two_mul_one_le_spacing (hm : 2 ^ 53 ≤ m) : 2 * one ≤ spacing (m * one) := by
  have hdvd := spacing_dvd_spacing (Nat.mul_le_mul_right one hm)
  rw [spacing_top one_isPow] at hdvd
  exact Nat.le_of_dvd (spacing_pos _) hdvd

/-- From `2 ^ 52` on a settled number is nearest to what is off by one half. -/
theorem nearest_eq_of_settled (hdvd : spacing (m * one) ∣ m * one) (hm : Settled m)
    (hlow : 2 ^ 52 * one ≤ num) (hbelow : 2 * (m * one) ≤ 2 * num + one)
    (habove : 2 * num ≤ 2 * (m * one) + one) : nearest num 1 = m * one := by
  have hpos := Binary64.one_pos
  have hfull : 2 ^ 52 ≤ m := by
    by_contra hlt
    have := Nat.mul_le_mul_right one (Nat.succ_le_of_lt (Nat.lt_of_not_le hlt))
    rw [Nat.succ_mul] at this
    omega
  by_cases hlt : m < 2 ^ 53
  · have hhigh := Nat.mul_le_mul_right one (Nat.succ_le_of_lt hlt)
    rw [Nat.succ_mul] at hhigh
    have heven : m % 2 = 0 := by
      cases hm with
      | inl hle => omega
      | inr h => omega
    exact nearest_tie heven hlow (by omega) hbelow habove
  · have hspacing := two_mul_one_le_spacing (Nat.le_of_not_lt hlt)
    have hle := Nat.le_mul_of_pos_left one (show 0 < m by omega)
    exact nearest_eq_of_near hdvd (by omega) (by omega) (by omega)

theorem sum_whole (hdvd : spacing (m * one) ∣ m * one) (hm : Settled m) :
    nearest (m * one + oneHalf) 1 / one = m := by
  have htwo := one_eq_two_mul
  have hpos := Binary64.one_pos
  have hmul := mul_one_eq m
  rw [Nat.div_eq_iff hpos]
  by_cases hlt : m < 2 ^ 52
  · have hodd : m * one + oneHalf = (2 * m + 1) * oneHalf := by
      rw [hmul, Nat.add_mul, Nat.one_mul]
    have hexact : nearest (m * one + oneHalf) 1 = m * one + oneHalf := by
      rw [hodd]
      exact nearest_eq_self Nat.one_pos (spacing_dvd_mul oneHalf_isPow (by omega))
        (Nat.mul_one _).symm
    rw [hexact]
    omega
  · have hlow := Nat.mul_le_mul_right one (Nat.le_of_not_lt hlt)
    rw [nearest_eq_of_settled hdvd hm (by omega) (by omega) (by omega)]
    omega

theorem difference_whole (hdvd : spacing (m * one) ∣ m * one) (hpos : 0 < m) (hm : Settled m) :
    oneHalf < m * one ∧ (nearest (m * one - oneHalf) 1 + one - 1) / one = m := by
  have htwo := one_eq_two_mul
  have honepos := Binary64.one_pos
  have hmul := mul_one_eq m
  have hle := Nat.le_mul_of_pos_left one hpos
  rw [Nat.div_eq_iff honepos]
  by_cases hlt : m ≤ 2 ^ 52
  · have hodd : m * one - oneHalf = (2 * m - 1) * oneHalf := by
      rw [hmul, Nat.sub_mul, Nat.one_mul]
    have hexact : nearest (m * one - oneHalf) 1 = m * one - oneHalf := by
      rw [hodd]
      exact nearest_eq_self Nat.one_pos (spacing_dvd_mul oneHalf_isPow (by omega))
        (Nat.mul_one _).symm
    rw [hexact]
    omega
  · have hlow := Nat.mul_le_mul_right one (Nat.lt_of_not_le hlt)
    rw [Nat.succ_mul] at hlow
    rw [nearest_eq_of_settled hdvd hm (by omega) (by omega) (by omega)]
    omega

theorem nearest_whole (hdvd : spacing (m * one) ∣ m * one) :
    nearest (m * one) (10 ^ 0) = m * one := by
  apply nearest_eq_self (by decide) hdvd
  rw [Nat.pow_zero, Nat.mul_one (m * one)]

theorem nearest_whole_product (hdvd : spacing (m * one) ∣ m * one) :
    nearest (m * one * 10 ^ 0) 1 = m * one := by
  apply nearest_eq_self Nat.one_pos hdvd
  rw [Nat.pow_zero]

theorem multiple_whole (hdvd : spacing (m * one) ∣ m * one) :
    multiple (m * one) 0 = nearest (m * one + oneHalf) 1 / one := by
  rw [multiple, nearest_whole_product hdvd]

theorem kept_whole (hdvd : spacing (m * one) ∣ m * one) (hm : Settled m) : Kept m 0 := by
  constructor
  · rw [nearest_whole hdvd, multiple_whole hdvd]
    exact sum_whole hdvd hm
  · intro hpos
    rw [nearest_whole hdvd, nearest_whole_product hdvd]
    exact (difference_whole hdvd hpos hm).1
  · intro hpos
    rw [multipleBelow, nearest_whole hdvd, nearest_whole_product hdvd]
    exact (difference_whole hdvd hpos hm).2

/-- In the middle between two whole numbers a rounding goes to the even one. -/
theorem sum_even (hlow : 2 ^ 52 ≤ m) (hhigh : m < 2 ^ 53) :
    nearest (m * one + oneHalf) 1 / one % 2 = 0 := by
  have htwo := one_eq_two_mul
  have hpos := Binary64.one_pos
  have hunit : 1 * one = one := Nat.one_mul one
  have hbottom := Nat.mul_le_mul_right one hlow
  have htop := Nat.mul_le_mul_right one (Nat.succ_le_of_lt hhigh)
  rw [Nat.succ_mul] at htop
  have hspacing : spacing ((m * one + oneHalf) / 1) = one := by
    rw [Nat.div_one]
    exact spacing_eq_of one_isPow (.inr (by omega)) (by omega)
  have hquotient : nearest (m * one + oneHalf) 1 / one = divNearest (m * one + oneHalf) one := by
    rw [nearest, hspacing, hunit, Nat.mul_div_cancel _ hpos]
  obtain ⟨-, -, htie⟩ := divNearest_spec (m * one + oneHalf) hpos
  rw [hquotient]
  generalize divNearest (m * one + oneHalf) one = c at *
  by_contra hodd
  obtain ⟨hbelow, habove⟩ := htie (by omega)
  have hle : c < m + 1 := by
    by_contra hge
    have := Nat.mul_le_mul_right one (Nat.le_of_not_lt hge)
    rw [Nat.succ_mul] at this
    omega
  have hge : m < c := by
    by_contra hle
    have := Nat.mul_le_mul_right one (Nat.le_of_not_lt hle)
    omega
  omega

/-- One rounding settles a whole number. -/
theorem settled_multiple (hdvd : spacing (m * one) ∣ m * one) :
    Settled (multiple (m * one) 0) := by
  rw [multiple_whole hdvd]
  by_cases hmiddle : 2 ^ 52 < m ∧ m < 2 ^ 53
  · exact .inr (.inl (sum_even hmiddle.1.le hmiddle.2))
  · have hsettled : Settled m := by
      unfold Settled
      omega
    rw [sum_whole hdvd hsettled]
    exact hsettled

theorem spacing_dvd_multiple (n places : Nat) :
    spacing (multiple n places * one) ∣ multiple n places * one := by
  have hdvd : spacing (nearest (nearest (n * 10 ^ places) 1 + oneHalf) 1) ∣
      nearest (nearest (n * 10 ^ places) 1 + oneHalf) 1 := spacing_dvd_nearest Nat.one_pos
  have hpos := Binary64.one_pos
  exact spacing_dvd_of_div hdvd (Nat.le_refl _) (Nat.div_le_div_right (by omega))

end

section
variable {m places k : Nat} (h : Kept m places) (hplaces : places ≤ 22)
include h hplaces

theorem Kept.roundTo_positive (fits : Fits (nearest (m * one) (10 ^ places))) (hk : k < 1023)
    (hbound : nearest (m * one) (10 ^ places) * 10 ^ places ≤ 2 ^ k * one) :
    roundTo (.finite false (nearest (m * one) (10 ^ places)) fits) places =
      .finite false (nearest (m * one) (10 ^ places)) fits := by
  have hround := Decimal.roundTo_positive hplaces (by omega) fits hbound
  rw [h.positive] at hround
  obtain ⟨_, hround⟩ := hround
  exact hround

theorem Kept.roundTo_negative (fits : Fits (nearest (m * one) (10 ^ places))) (hk : k < 1023)
    (hbound : nearest (m * one) (10 ^ places) * 10 ^ places ≤ 2 ^ k * one)
    (hne : nearest (m * one) (10 ^ places) ≠ 0) :
    roundTo (.finite true (nearest (m * one) (10 ^ places)) fits) places =
      .finite true (nearest (m * one) (10 ^ places)) fits := by
  have hpos : 0 < m := by
    by_contra hzero
    obtain rfl : m = 0 := by omega
    apply hne
    apply nearest_eq_self (Nat.pow_pos (by decide)) (Nat.dvd_zero _)
    rw [Nat.zero_mul, Nat.zero_mul]
  have hround :=
    Decimal.roundTo_negative hplaces (by omega) fits hbound (h.beyond_half hpos)
  rw [h.negative hpos, bne_iff_ne.mpr hne] at hround
  obtain ⟨_, hround⟩ := hround
  exact hround

end

end Decimal
end Placeholders
