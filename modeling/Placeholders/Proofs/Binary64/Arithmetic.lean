import Placeholders.Proofs.Binary64.Rounding

/-!
Arithmetic on finite numbers that stay far below the limit: one rounding of the exact result, which
is a number again.
-/

namespace Placeholders
namespace Binary64

theorem one_eq_pow {k : Nat} (hk : k = 1074) : one = 2 ^ k := by
  unfold one
  rw [← hk]
  rfl

theorem one_isPow : ∃ k, one = 2 ^ k := ⟨_, one_eq_pow rfl⟩

theorem exists_one_eq {k : Nat} (hk : k ≤ 1074) : ∃ u, (∃ j, u = 2 ^ j) ∧ one = 2 ^ k * u := by
  obtain ⟨j, hj⟩ := Nat.exists_eq_add_of_le hk
  refine ⟨2 ^ j, ⟨j, rfl⟩, ?_⟩
  rw [← Nat.pow_add, one_eq_pow hj.symm]

theorem pow_mul_one_lt_limit {k : Nat} (hk : k < 1024) : 2 ^ k * one < limit := by
  obtain ⟨j, hj⟩ : ∃ j, j = 2098 := ⟨_, rfl⟩
  have hlimit : limit = 2 ^ j := by
    unfold limit
    rw [← hj]
    rfl
  obtain ⟨i, hi⟩ : ∃ i, i = 1074 := ⟨_, rfl⟩
  rw [hlimit, one_eq_pow hi, ← Nat.pow_add]
  apply Nat.pow_lt_pow_right
  · decide
  · omega

theorem spacing_dvd_mul {m u : Nat} (hu : ∃ k, u = 2 ^ k) (hm : m ≤ 2 ^ 53) :
    spacing (m * u) ∣ m * u := by
  obtain ⟨k, rfl⟩ := hu
  by_cases hzero : m * 2 ^ k = 0
  · rw [hzero]
    exact Nat.dvd_zero _
  · cases Nat.lt_or_eq_of_le hm with
    | inl hlt =>
        have hlog : (m * 2 ^ k).log2 < 53 + k := by
          rw [Nat.log2_lt hzero, Nat.pow_add]
          exact Nat.mul_lt_mul_of_pos_right hlt (Nat.two_pow_pos k)
        rw [spacing_eq]
        exact Nat.dvd_mul_left_of_dvd (Nat.pow_dvd_pow 2 (by omega)) m
    | inr heq =>
        rw [heq, spacing_top ⟨k, rfl⟩]
        exact ⟨2 ^ 52, by ring⟩

theorem spacing_dvd_pow (k : Nat) : spacing (2 ^ k * one) ∣ 2 ^ k * one := by
  obtain ⟨j, hj⟩ := one_isPow
  have hpow := spacing_dvd_mul (m := 1) ⟨k + j, rfl⟩ (by decide)
  rw [Nat.one_mul] at hpow
  rw [hj, ← Nat.pow_add]
  exact hpow

theorem spacing_dvd_one : spacing one ∣ one := by
  obtain ⟨j, hj⟩ := one_isPow
  have hpow := spacing_dvd_mul (m := 1) ⟨j, rfl⟩ (by decide)
  rw [Nat.one_mul] at hpow
  rw [hj]
  exact hpow

theorem pow_le_one : 2 ^ 52 ≤ one := by
  obtain ⟨u, ⟨j, rfl⟩, hone⟩ := exists_one_eq (k := 52) (by decide)
  rw [hone]
  exact Nat.le_mul_of_pos_right _ (Nat.two_pow_pos j)

section
variable {n num den k : Nat}

theorem fits_of_le (hk : k < 1024) (hn : spacing n ∣ n) (h : n ≤ 2 ^ k * one) : Fits n :=
  ⟨Nat.lt_of_le_of_lt h (pow_mul_one_lt_limit hk), hn⟩

theorem nearest_le_pow (hden : 0 < den) (h : num ≤ 2 ^ k * one * den) :
    nearest num den ≤ 2 ^ k * one := nearest_le hden (spacing_dvd_pow k) h

theorem ofRatio_finite (hk : k < 1024) (hden : 0 < den) (h : num ≤ 2 ^ k * one * den)
    (negative : Bool) :
    ∃ fits, ofRatio negative num den = finite negative (nearest num den) fits := by
  have hfits := fits_of_le hk (spacing_dvd_nearest hden) (nearest_le_pow hden h)
  refine ⟨hfits, ?_⟩
  rw [ofRatio_eq, ofQuanta, dif_pos hfits]

theorem ofNat_finite (h : n ≤ 2 ^ 53) : ∃ fits, ofNat n = finite false (n * one) fits := by
  have hdvd := spacing_dvd_mul one_isPow h
  have hfits : Fits (n * one) := fits_of_le (by decide) hdvd (Nat.mul_le_mul_right one h)
  refine ⟨hfits, ?_⟩
  rw [ofNat, ofRatio_eq, nearest_eq_self Nat.one_pos hdvd (Nat.mul_one (n * one)).symm, ofQuanta,
    dif_pos hfits]

theorem one_dvd_of_le (hn : spacing n ∣ n) (h : 2 ^ 53 * one ≤ n) : one ∣ n := by
  have htop := spacing_dvd_spacing h
  rw [spacing_top one_isPow] at htop
  exact (Nat.dvd_mul_left one 2).trans (htop.trans hn)

theorem spacing_dvd_of_div {m : Nat} (hn : spacing n ∣ n) (hlow : n / one ≤ m)
    (hhigh : m ≤ (n + one - 1) / one) : spacing (m * one) ∣ m * one := by
  by_cases hm : m ≤ 2 ^ 53
  · exact spacing_dvd_mul one_isPow hm
  · have hpos := one_pos
    have hlarge : 2 ^ 53 * one ≤ n := by
      have hle : 2 ^ 53 + 1 ≤ (n + one - 1) / one := by omega
      rw [Nat.le_div_iff_mul_le hpos, Nat.add_mul, Nat.one_mul] at hle
      omega
    obtain ⟨c, hc⟩ := one_dvd_of_le hn hlarge
    have hquotient : n / one = c := by rw [hc, Nat.mul_div_cancel_left _ hpos]
    have hquotient' : (n + one - 1) / one = c := by
      rw [Nat.div_eq_iff hpos, hc, Nat.mul_comm]
      omega
    obtain rfl : m = c := by omega
    rw [Nat.mul_comm, ← hc]
    exact hn

/-- The floor of a number is a whole number, next to it on the side of its sign. -/
theorem floor_finite (hk : k < 1024) (h : n ≤ 2 ^ k * one) (negative : Bool) (fits : Fits n) :
    ∃ m fits', (finite negative n fits).floor = finite negative (m * one) fits' ∧ m ≤ 2 ^ k ∧
      m = if negative then (n + one - 1) / one else n / one := by
  obtain ⟨m, hm⟩ : ∃ m, m = if negative then (n + one - 1) / one else n / one := ⟨_, rfl⟩
  have hpos := one_pos
  have hle : n / one ≤ (n + one - 1) / one := Nat.div_le_div_right (by omega)
  have hbetween : n / one ≤ m ∧ m ≤ (n + one - 1) / one := by
    rw [hm]
    split <;> omega
  have hmk : m ≤ 2 ^ k := by
    have hlt : (n + one - 1) / one < 2 ^ k + 1 := by
      rw [Nat.div_lt_iff_lt_mul hpos, Nat.succ_mul]
      omega
    omega
  have hfits : Fits (m * one) := fits_of_le hk
    (spacing_dvd_of_div fits.2 hbetween.1 hbetween.2) (Nat.mul_le_mul_right one hmk)
  refine ⟨m, hfits, ?_, hmk, hm⟩
  rw [floor, ← hm, ofQuanta, dif_pos hfits]

end

/-- The quanta in one half. -/
def oneHalf : Nat := Nat.pow 2 1073

theorem oneHalf_eq_pow {k : Nat} (hk : k = 1073) : oneHalf = 2 ^ k := by
  unfold oneHalf
  rw [← hk]
  rfl

theorem oneHalf_isPow : ∃ k, oneHalf = 2 ^ k := ⟨_, oneHalf_eq_pow rfl⟩

theorem one_eq_two_mul : one = 2 * oneHalf := by
  obtain ⟨k, hk⟩ : ∃ k, k = 1073 := ⟨_, rfl⟩
  rw [oneHalf_eq_pow hk, one_eq_pow (k := k + 1) (by omega), Nat.pow_succ']

theorem two_mul_oneHalf_le (k : Nat) : 2 * oneHalf ≤ 2 ^ k * one := by
  rw [← one_eq_two_mul]
  exact Nat.le_mul_of_pos_left one (Nat.two_pow_pos k)

theorem half_finite : ∃ fits, half = finite false oneHalf fits := by
  have hdvd : spacing oneHalf ∣ oneHalf := by
    have hpow := spacing_dvd_mul (m := 1) oneHalf_isPow (by decide)
    rw [Nat.one_mul] at hpow
    exact hpow
  have hone := one_eq_two_mul
  have hnearest : nearest one 2 = oneHalf := nearest_eq_self (by decide) hdvd (by omega)
  have hfits : Fits oneHalf := fits_of_le (k := 0) (by decide) hdvd (by omega)
  refine ⟨hfits, ?_⟩
  rw [half, ofRatio_eq, hnearest, ofQuanta, dif_pos hfits]

section
variable {n m k : Nat} (hn : Fits n) (hm : Fits m)
include hn hm

theorem mul_eq (a b : Bool) : finite a n hn * finite b m hm = ofRatio (a ^^ b) (n * m) one := by
  change mul (finite a n hn) (finite b m hm) = _
  simp only [mul, isNegative]

theorem add_eq (a b : Bool) : finite a n hn + finite b m hm = addFinite a n b m := by
  change add (finite a n hn) (finite b m hm) = _
  simp only [add]

theorem div_eq (a b : Bool) (hpos : m ≠ 0) :
    finite a n hn / finite b m hm = ofRatio (a ^^ b) (n * one) m := by
  change div (finite a n hn) (finite b m hm) = _
  simp only [div, isNegative, if_neg hpos]

theorem mul_finite (negative : Bool) (hk : k < 1024) (h : n * m ≤ 2 ^ k * one * one) :
    ∃ fits, finite negative n hn * finite false m hm =
      finite negative (nearest (n * m) one) fits := by
  obtain ⟨fits, hratio⟩ := ofRatio_finite hk one_pos h (negative ^^ false)
  refine ⟨fits, ?_⟩
  rw [mul_eq hn hm negative false, hratio, Bool.xor_false]

theorem add_unsigned (hk : k < 1024) (h : n + m ≤ 2 ^ k * one) :
    ∃ fits, finite false n hn + finite false m hm = finite false (nearest (n + m) 1) fits := by
  rw [← Nat.mul_one (2 ^ k * one)] at h
  obtain ⟨fits, hratio⟩ := ofRatio_finite hk Nat.one_pos h false
  refine ⟨fits, ?_⟩
  rw [add_eq hn hm false false, addFinite, if_pos rfl, hratio]

theorem add_finite (a b : Bool) (hk : k + 1 < 1024) (hnk : n ≤ 2 ^ k * one)
    (hmk : m ≤ 2 ^ k * one) :
    ∃ c l fits, finite a n hn + finite b m hm = finite c l fits ∧ l ≤ 2 ^ (k + 1) * one := by
  have hsum : n + m ≤ 2 ^ (k + 1) * one * 1 := by
    rw [Nat.pow_succ', Nat.mul_one, Nat.mul_assoc]
    omega
  have hratio (c : Bool) {num : Nat} (hle : num ≤ n + m) :
      ∃ d l fits, ofRatio c num 1 = finite d l fits ∧ l ≤ 2 ^ (k + 1) * one := by
    obtain ⟨fits, heq⟩ := ofRatio_finite hk Nat.one_pos (Nat.le_trans hle hsum) c
    exact ⟨c, _, fits, heq, nearest_le_pow Nat.one_pos (Nat.le_trans hle hsum)⟩
  rw [add_eq, addFinite]
  split
  · exact hratio a (Nat.le_refl _)
  · split
    · exact ⟨false, 0, fits_zero, rfl, Nat.zero_le _⟩
    · split
      · exact hratio b (by omega)
      · exact hratio a (by omega)

end

section
variable {n : Nat} (fits : Fits n)

theorem ofRatio_self (negative : Bool) : ofRatio negative n 1 = finite negative n fits := by
  rw [ofRatio_eq, nearest_eq_self Nat.one_pos fits.2 (Nat.mul_one n).symm, ofQuanta, dif_pos fits]

theorem zero_add : zero false + finite false n fits = finite false n fits := by
  rw [zero, add_eq, addFinite, if_pos rfl, Nat.zero_add, ofRatio_self fits]

theorem zero_sub_of_eq_zero (hn : n = 0) :
    zero false - finite false n fits = finite false n fits := by
  have hneg : zero false - finite false n fits = zero false + finite true n fits := rfl
  subst hn
  rw [hneg, zero, add_eq, addFinite, if_neg Bool.false_ne_true, if_pos rfl, zero]

theorem zero_sub (hn : n ≠ 0) : zero false - finite false n fits = finite true n fits := by
  have hneg : zero false - finite false n fits = zero false + finite true n fits := rfl
  rw [hneg, zero, add_eq, addFinite, if_neg Bool.false_ne_true, if_neg hn.symm,
    if_pos (Nat.pos_of_ne_zero hn), Nat.sub_zero, ofRatio_self fits]

end

end Binary64
end Placeholders
