import Mathlib.Data.Rat.Floor
import Placeholders.Proofs.Decimal.Stability

/-!
Rounding without places is the floor of the number plus one half, except where one half cannot be
added exactly: at the number right below one half, and at odd numbers so large that the sum lies in
the middle between two numbers. Both are rounded up by one too much.
-/

namespace Placeholders

namespace Binary64

/-- The rational number that a finite number is. -/
def toRat? : Binary64 → Option ℚ
  | finite negative n _ => some (if negative then -(n / one) else n / one)
  | _ => none

/-- The greatest number below one half. -/
def belowHalf : Nat := oneHalf - one / 2 ^ 54

theorem one_ratPos : (0 : ℚ) < one := by exact_mod_cast one_pos

theorem dvd_of_isPow_of_le {a b : Nat} (ha : ∃ k, a = 2 ^ k) (hb : ∃ k, b = 2 ^ k) (h : a ≤ b) :
    a ∣ b := by
  obtain ⟨i, rfl⟩ := ha
  obtain ⟨j, rfl⟩ := hb
  exact Nat.pow_dvd_pow 2 ((Nat.pow_le_pow_iff_right (by decide)).mp h)

section
variable {m n u : Nat}

theorem spacing_dvd_of_lt (hu : ∃ k, u = 2 ^ k) (h : n < 2 ^ 53 * u) : spacing n ∣ u := by
  by_cases hfull : 2 ^ 52 * u ≤ n
  · rw [spacing_eq_of hu (.inr hfull) h]
  · have hdvd := spacing_dvd_spacing (Nat.le_of_not_le hfull)
    rwa [spacing_mul hu (.inr (Nat.le_refl _)) (by decide)] at hdvd

theorem one_dvd_of_full (hn : spacing n ∣ n) (h : 2 ^ 52 * one ≤ n) : one ∣ n := by
  have hdvd := spacing_dvd_spacing h
  rw [spacing_mul one_isPow (.inr (Nat.le_refl _)) (by decide)] at hdvd
  exact hdvd.trans hn

/-- A multiple of some power of two is a number as long as its factor has at most 53 bits. -/
theorem nearest_eq_self_of_dvd (hu : ∃ k, u = 2 ^ k) (hdvd : u ∣ n) (hle : n ≤ 2 ^ 53 * u) :
    nearest n 1 = n := by
  have hpos : 0 < u := by
    obtain ⟨k, rfl⟩ := hu
    exact Nat.two_pow_pos k
  obtain ⟨c, hc⟩ := hdvd
  rw [Nat.mul_comm] at hc
  rw [hc] at hle
  have hdvd : spacing n ∣ n := hc ▸ spacing_dvd_mul hu (Nat.le_of_mul_le_mul_right hle hpos)
  exact nearest_eq_self Nat.one_pos hdvd (Nat.mul_one n).symm

/-- The whole number after a number is at most the power of two after it. -/
theorem succ_mul_one_le (hpos : 0 < m) (hlt : m * one < n) :
    (m + 1) * one ≤ 2 ^ 53 * spacing n := by
  have hle := Nat.le_mul_of_pos_left one hpos
  have htop := lt_spacing n
  obtain ⟨i, hi⟩ := spacing_isPow n
  have hpow : ∃ j, 2 ^ 53 * spacing n = 2 ^ j := ⟨53 + i, by rw [hi, Nat.pow_add]⟩
  obtain ⟨j, hj⟩ := dvd_of_isPow_of_le one_isPow hpow (by omega)
  rw [Nat.mul_comm one] at hj
  rw [hj] at htop ⊢
  exact Nat.mul_le_mul_right one (Nat.lt_of_mul_lt_mul_right (hlt.trans htop))

theorem ofRatio_eq_finite {num den : Nat} (negative : Bool) (fits : Fits n)
    (h : nearest num den = n) : ofRatio negative num den = finite negative n fits := by
  rw [ofRatio_eq, h, ofQuanta, dif_pos fits]

theorem belowHalf_eq (hone : one = 2 ^ 54 * u) : belowHalf = (2 ^ 53 - 1) * u := by
  have htwo := one_eq_two_mul
  rw [belowHalf, hone, Nat.mul_div_cancel_left u (by decide)]
  omega

theorem add_half_div (m : Nat) : (m * one + oneHalf) / one = m := by
  have htwo := one_eq_two_mul
  have hpos := one_pos
  rw [Nat.div_eq_iff hpos]
  omega

theorem ceil_whole (m : Nat) : (m * one + one - 1) / one = m := by
  have hpos := one_pos
  rw [Nat.div_eq_iff hpos]
  omega

theorem ceil_sub_half (h : oneHalf < m * one) : (m * one - oneHalf + one - 1) / one = m := by
  have htwo := one_eq_two_mul
  have hpos := one_pos
  rw [Nat.div_eq_iff hpos]
  omega

theorem pos_of_half_lt (h : oneHalf < m * one) : 0 < m := by
  by_contra hzero
  rw [Nat.eq_zero_of_not_pos hzero, Nat.zero_mul] at h
  omega

end

end Binary64

namespace Decimal

open Binary64

section
variable {m n k : Nat}

/-- Between two whole numbers the sum with one half is exact. -/
theorem sum_exact (hn : spacing n ∣ n) (hpos : 0 < k) (hsmall : n < 2 ^ 52 * one)
    (hlow : k * one < n) (hhigh : n + oneHalf < (k + 1) * one) :
    nearest (n + oneHalf) 1 = n + oneHalf := by
  have htwo := one_eq_two_mul
  have hhalf : spacing n ∣ oneHalf := spacing_dvd_of_lt oneHalf_isPow (by omega)
  exact nearest_eq_self_of_dvd (spacing_isPow n) (Nat.dvd_add hn hhalf)
    (hhigh.le.trans (succ_mul_one_le hpos hlow))

/-- From one half on, and below `2 ^ 52`, the sum with one half has the floor it should have. -/
theorem sum_floor_of_half_le (hn : spacing n ∣ n) (hhalf : oneHalf ≤ n)
    (hsmall : n < 2 ^ 52 * one) : nearest (n + oneHalf) 1 / one = (n + oneHalf) / one := by
  have htwo := one_eq_two_mul
  have hpos := Binary64.one_pos
  obtain ⟨k, hk⟩ : ∃ k, k = (n + oneHalf) / one := ⟨_, rfl⟩
  have hlow : k * one ≤ n + oneHalf := hk ▸ Nat.div_mul_le_self _ _
  have hhigh : n + oneHalf < (k + 1) * one := hk ▸ lt_succ_div_mul hpos
  have hkpos : 0 < k := by
    rw [hk]
    exact Nat.div_pos (by omega) hpos
  have hk52 : k ≤ 2 ^ 52 := by
    by_contra hlt
    have := Nat.mul_le_mul_right one (Nat.lt_of_not_le hlt)
    rw [Nat.succ_mul] at this
    omega
  have hdvd : spacing (k * one) ∣ k * one := spacing_dvd_mul one_isPow (by omega)
  -- Up to `k` the sum is at most that of `k` itself, which is rounded to less than `k + 1`.
  by_cases habove : k * one < n
  · rw [sum_exact hn hkpos hsmall habove hhigh]
  · rw [← hk]
    apply Nat.le_antisymm
    · rw [← sum_whole hdvd (.inl hk52)]
      exact Nat.div_le_div_right (nearest_mono Nat.one_pos Nat.one_pos (by omega))
    · rw [Nat.le_div_iff_mul_le hpos]
      exact le_nearest Nat.one_pos hdvd (by omega)

theorem sum_floor_of_lt_half (hn : spacing n ∣ n) (hhalf : n < oneHalf) (hne : n ≠ belowHalf) :
    nearest (n + oneHalf) 1 / one = (n + oneHalf) / one := by
  have htwo := one_eq_two_mul
  have hpos := Binary64.one_pos
  obtain ⟨u, ⟨j, hu⟩, hone⟩ := exists_one_eq (k := 54) (by decide)
  rw [belowHalf_eq hone] at hne
  -- Right below one half numbers lie `u` apart, right below one they lie `2 * u` apart.
  have hle : n ≤ (2 ^ 53 - 2) * u := by
    by_contra hgt
    have hspacing : spacing n = u := spacing_eq_of ⟨j, hu⟩ (.inr (by omega)) (by omega)
    rw [hspacing] at hn
    obtain ⟨c, rfl⟩ := hn
    rw [Nat.mul_comm] at hne hgt hhalf
    have hc : 2 ^ 53 - 2 < c := Nat.lt_of_mul_lt_mul_right (Nat.lt_of_not_le hgt)
    have hc' : c < 2 ^ 53 := by
      have : c * u < 2 ^ 53 * u := by omega
      exact Nat.lt_of_mul_lt_mul_right this
    exact hne (by rw [show c = 2 ^ 53 - 1 by omega])
  have hdouble : ∃ k, 2 * u = 2 ^ k := ⟨j + 1, by rw [hu, Nat.pow_succ']⟩
  have hnearest : nearest (n + oneHalf) 1 ≤ (2 ^ 53 - 1) * (2 * u) :=
    nearest_le Nat.one_pos (spacing_dvd_mul hdouble (by decide)) (by omega)
  rw [Nat.div_eq_of_lt (by omega), Nat.div_eq_of_lt (by omega)]

/-- The sum with one half has the floor it should have, unless the number is right below one half
or an odd number between `2 ^ 52` and `2 ^ 53`. -/
theorem sum_floor (hn : spacing n ∣ n) (hne : n ≠ belowHalf)
    (hsettled : ∀ m, n = m * one → Settled m) :
    nearest (n + oneHalf) 1 / one = (n + oneHalf) / one := by
  by_cases hfull : 2 ^ 52 * one ≤ n
  · obtain ⟨m, hm⟩ := one_dvd_of_full hn hfull
    rw [Nat.mul_comm] at hm
    rw [hm] at hn ⊢
    rw [sum_whole hn (hsettled m hm), add_half_div]
  · by_cases hhalf : oneHalf ≤ n
    · exact sum_floor_of_half_le hn hhalf (Nat.lt_of_not_le hfull)
    · exact sum_floor_of_lt_half hn (Nat.lt_of_not_le hhalf) hne

/-- The same below zero. There small differences are exact. -/
theorem difference_ceil (hn : spacing n ∣ n) (hhalf : oneHalf < n)
    (hsettled : ∀ m, n = m * one → Settled m) :
    (nearest (n - oneHalf) 1 + one - 1) / one = (n - oneHalf + one - 1) / one := by
  by_cases hfull : 2 ^ 52 * one ≤ n
  · obtain ⟨m, hm⟩ := one_dvd_of_full hn hfull
    rw [Nat.mul_comm] at hm
    rw [hm] at hn hhalf ⊢
    rw [(difference_whole hn (pos_of_half_lt hhalf) (hsettled m hm)).2, ceil_sub_half hhalf]
  · have htwo := one_eq_two_mul
    have hdvd : spacing n ∣ oneHalf := spacing_dvd_of_lt oneHalf_isPow (by omega)
    have hlt := lt_spacing n
    rw [nearest_eq_self_of_dvd (spacing_isPow n) (Nat.dvd_sub hn hdvd) (by omega)]

theorem belowHalf_lt : belowHalf < oneHalf := by
  obtain ⟨u, ⟨j, hu⟩, hone⟩ := exists_one_eq (k := 54) (by decide)
  have htwo := one_eq_two_mul
  have hpos : 0 < u := hu ▸ Nat.two_pow_pos j
  rw [belowHalf_eq hone]
  omega

theorem not_settled_iff : ¬ Settled m ↔ m % 2 = 1 ∧ 2 ^ 52 < m ∧ m < 2 ^ 53 := by
  unfold Settled
  omega

/-- The sum with one half lies in the middle between two numbers, and the even one is above. -/
theorem sum_floor_lost (h : n = belowHalf ∨ ∃ m, n = m * one ∧ ¬ Settled m) :
    nearest (n + oneHalf) 1 / one = (n + oneHalf) / one + 1 := by
  have htwo := one_eq_two_mul
  rcases h with hn | ⟨m, hn, hm⟩
  · have hsum : nearest (belowHalf + oneHalf) 1 / one = 1 := by decide +kernel
    have hlt := belowHalf_lt
    rw [hn, hsum, Nat.div_eq_of_lt (by omega)]
  · rw [not_settled_iff] at hm
    have hsettled : Settled (m + 1) := .inr (.inl (by omega))
    have hbottom := Nat.mul_le_mul_right one hm.2.1.le
    have hnext : (m + 1) * one = m * one + one := Nat.succ_mul m one
    rw [hn, nearest_eq_of_settled (m := m + 1) (spacing_dvd_mul one_isPow (by omega)) hsettled
      (by omega) (by omega) (by omega), Nat.mul_div_cancel _ Binary64.one_pos, add_half_div]

theorem difference_ceil_lost (h : ¬ Settled m) :
    (nearest (m * one - oneHalf) 1 + one - 1) / one + 1 =
      (m * one - oneHalf + one - 1) / one := by
  have htwo := one_eq_two_mul
  have hpos := Binary64.one_pos
  rw [not_settled_iff] at h
  have hsettled : Settled (m - 1) := .inr (.inl (by omega))
  have hbottom := Nat.mul_le_mul_right one (show 2 ^ 52 ≤ m - 1 by omega)
  have hprevious : (m - 1) * one = m * one - one := by rw [Nat.sub_mul, Nat.one_mul]
  rw [nearest_eq_of_settled (m := m - 1) (spacing_dvd_mul one_isPow (by omega)) hsettled (by omega)
    (by omega) (by omega), ceil_whole, ceil_sub_half (by omega)]
  omega

end

section
variable {n : Nat}

theorem nearest_product_zero (hn : spacing n ∣ n) : nearest (n * 10 ^ 0) 1 = n :=
  nearest_eq_self Nat.one_pos hn (by rw [Nat.pow_zero])

theorem settled_of_full (hn : spacing n ∣ n) (hfull : 2 ^ 53 * one ≤ n) :
    ∃ m, n = m * one ∧ Settled m := by
  obtain ⟨m, hm⟩ := one_dvd_of_le hn hfull
  rw [Nat.mul_comm] at hm
  rw [hm] at hfull
  exact ⟨m, hm, .inr (.inr (Nat.le_of_mul_le_mul_right hfull Binary64.one_pos))⟩

theorem mul_one_div_one (m : Nat) : ((m * one : Nat) : ℚ) / one = m := by
  rw [Nat.cast_mul, mul_div_cancel_right₀ _ one_ratPos.ne']

theorem mul_powerOfTen_zero (negative : Bool) (fits : Fits n) :
    Binary64.finite negative n fits * powerOfTen (0 : Nat) = .finite negative n fits := by
  obtain ⟨_, hscale⟩ := powerOfTen_exact (Nat.zero_le 22)
  rw [hscale, mul_eq, Bool.xor_false, ofRatio_eq_finite negative fits]
  rw [nearest_product, nearest_product_zero fits.2]

theorem div_powerOfTen_zero (negative : Bool) (fits : Fits n) :
    Binary64.finite negative n fits / powerOfTen (0 : Nat) = .finite negative n fits := by
  obtain ⟨hscalefits, hscale⟩ := powerOfTen_exact (Nat.zero_le 22)
  have hpos : 0 < 10 ^ 0 * one := Nat.mul_pos (by decide) Binary64.one_pos
  rw [hscale, div_eq fits hscalefits negative false hpos.ne', Bool.xor_false,
    ofRatio_eq_finite negative fits]
  exact nearest_eq_self hpos fits.2 (by rw [Nat.pow_zero, Nat.one_mul])

theorem add_half_of_full (negative : Bool) (fits : Fits n) (hfull : 2 ^ 53 * one ≤ n) :
    Binary64.finite negative n fits + half = .finite negative n fits := by
  have htwo := one_eq_two_mul
  have hpos := Binary64.one_pos
  obtain ⟨m, hm, hsettled⟩ := settled_of_full fits.2 hfull
  have hdvd : spacing (m * one) ∣ m * one := hm ▸ fits.2
  obtain ⟨_, hhalf⟩ := half_finite
  rw [hhalf, add_eq, addFinite]
  cases negative with
  | false =>
      have hsum : nearest (n + oneHalf) 1 = n := by
        rw [hm] at hfull ⊢
        exact nearest_eq_of_settled hdvd hsettled (by omega) (by omega) (by omega)
      rw [if_pos rfl, ofRatio_eq_finite false fits hsum]
  | true =>
      have hdifference : nearest (n - oneHalf) 1 = n := by
        rw [hm] at hfull ⊢
        exact nearest_eq_of_settled hdvd hsettled (by omega) (by omega) (by omega)
      rw [if_neg (by decide), if_neg (by omega), if_neg (by omega),
        ofRatio_eq_finite true fits hdifference]

theorem floor_whole {m : Nat} (negative : Bool) (fits : Fits n) (hm : n = m * one) :
    (Binary64.finite negative n fits).floor = .finite negative n fits := by
  have hdown : n / one = m := by rw [hm, Nat.mul_div_cancel _ Binary64.one_pos]
  have hup : (n + one - 1) / one = m := by rw [hm, ceil_whole]
  rw [Binary64.floor, hdown, hup, ite_self, ← hm, ofQuanta, dif_pos fits]

/-- From `2 ^ 53` on every step gives back the number. -/
theorem roundTo_of_full (negative : Bool) (fits : Fits n) (hfull : 2 ^ 53 * one ≤ n) :
    roundTo (.finite negative n fits) 0 = .finite negative n fits := by
  have hpos := Binary64.one_pos
  obtain ⟨m, hm, -⟩ := settled_of_full fits.2 hfull
  rw [roundTo_eq (by decide), mul_powerOfTen_zero, add_half_of_full negative fits hfull,
    floor_whole negative fits hm, div_powerOfTen_zero, isZero, beq_false_of_ne (by omega),
    if_neg Bool.false_ne_true]

theorem toRat?_roundTo_positive (fits : Fits n) : (roundTo (.finite false n fits) 0).toRat? =
    some ((nearest (n + oneHalf) 1 / one : Nat) : ℚ) := by
  by_cases hfull : 2 ^ 53 * one ≤ n
  · obtain ⟨m, hm, hsettled⟩ := settled_of_full fits.2 hfull
    rw [roundTo_of_full false fits hfull, toRat?, if_neg Bool.false_ne_true, hm, mul_one_div_one,
      sum_whole (hm ▸ fits.2) hsettled]
  · have hbound : n * 10 ^ 0 ≤ 2 ^ 53 * one := by omega
    obtain ⟨_, hround⟩ := roundTo_positive (by decide) (by decide) fits hbound
    rw [hround, toRat?, if_neg Bool.false_ne_true, nearest_whole (spacing_dvd_multiple n 0),
      mul_one_div_one, multiple, nearest_product_zero fits.2]

theorem toRat?_roundTo_negative (fits : Fits n) (hhalf : oneHalf < n) :
    (roundTo (.finite true n fits) 0).toRat? =
      some (-((nearest (n - oneHalf) 1 + one - 1) / one : Nat) : ℚ) := by
  by_cases hfull : 2 ^ 53 * one ≤ n
  · obtain ⟨m, hm, hsettled⟩ := settled_of_full fits.2 hfull
    have hmpos : 0 < m := pos_of_half_lt (hm ▸ hhalf)
    rw [roundTo_of_full true fits hfull, toRat?, if_pos rfl, hm, mul_one_div_one,
      (difference_whole (hm ▸ fits.2) hmpos hsettled).2]
  · have hbound : n * 10 ^ 0 ≤ 2 ^ 53 * one := by omega
    have hproduct := nearest_product_zero fits.2
    obtain ⟨_, hround⟩ :=
      roundTo_negative (by decide) (by decide) fits hbound (by rwa [hproduct])
    have hdvd : spacing (multipleBelow n 0 * one) ∣ multipleBelow n 0 * one :=
      spacing_dvd_of_div (spacing_dvd_nearest Nat.one_pos)
        (Nat.div_le_div_right (by omega)) (Nat.le_refl _)
    have hvalue : multipleBelow n 0 = (nearest (n - oneHalf) 1 + one - 1) / one := by
      rw [multipleBelow, hproduct]
    rw [hround, toRat?, nearest_whole hdvd, mul_one_div_one, ← hvalue]
    split
    · rfl
    · next hzero =>
        rw [bne_iff_ne, not_not] at hzero
        rw [(Nat.mul_eq_zero.mp hzero).resolve_right Binary64.one_pos.ne', Nat.cast_zero, neg_zero]

/-- From minus one half on the sum is zero or below one. -/
theorem toRat?_roundTo_small (fits : Fits n) (hhalf : n ≤ oneHalf) :
    (roundTo (.finite true n fits) 0).toRat? = some 0 := by
  have htwo := one_eq_two_mul
  have hpos := Binary64.one_pos
  have hsum : ∃ l fits', Binary64.finite true n fits * powerOfTen (0 : Nat) + half =
      .finite false l fits' ∧ l ≤ oneHalf := by
    obtain ⟨_, hhalf⟩ := half_finite
    rw [mul_powerOfTen_zero, hhalf, add_eq, addFinite, if_neg (by decide)]
    by_cases hmiddle : n = oneHalf
    · rw [if_pos hmiddle]
      exact ⟨0, fits_zero, rfl, Nat.zero_le _⟩
    · rw [if_neg hmiddle, if_pos (by omega)]
      have hbound : oneHalf - n ≤ 2 ^ 0 * one * 1 := by omega
      obtain ⟨hfits, hratio⟩ := ofRatio_finite (by decide) Nat.one_pos hbound false
      have hdvd := spacing_dvd_mul (m := 1) oneHalf_isPow (by decide)
      rw [Nat.one_mul] at hdvd
      exact ⟨_, hfits, hratio, nearest_le Nat.one_pos hdvd (by omega)⟩
  obtain ⟨l, fits', hsum, hl⟩ := hsum
  obtain ⟨m, _, hm, hround⟩ :=
    roundTo_of_sum (k := 0) (Nat.zero_le 22) (by decide) (by omega) hsum
  rw [if_neg Bool.false_ne_true, Nat.div_eq_of_lt (by omega)] at hm
  have hdvd : spacing (m * one) ∣ m * one := hm ▸ spacing_dvd_mul one_isPow (Nat.zero_le _)
  rw [hround, Bool.false_and, toRat?, if_neg Bool.false_ne_true, nearest_whole hdvd,
    mul_one_div_one, hm, Nat.cast_zero]

theorem one_half_eq : (1 / 2 : ℚ) = oneHalf / one := by
  have hone : (one : ℚ) = 2 * oneHalf := by exact_mod_cast one_eq_two_mul
  rw [eq_div_iff one_ratPos.ne', hone]
  ring

theorem floor_add_half (n : Nat) : ⌊(n / one + 1 / 2 : ℚ)⌋ = ((n + oneHalf) / one : Nat) := by
  rw [one_half_eq, ← add_div, ← Nat.cast_add, Rat.floor_natCast_div_natCast]
  rfl

theorem floor_neg_add_half (h : oneHalf ≤ n) : ⌊(-(n / one) + 1 / 2 : ℚ)⌋ =
    -(((n - oneHalf + one - 1) / one : Nat) : Int) := by
  have hpos := Binary64.one_pos
  obtain ⟨c, hc⟩ : ∃ c, c = (n - oneHalf + one - 1) / one := ⟨_, rfl⟩
  obtain ⟨hlow, hhigh⟩ := (Nat.div_eq_iff hpos).mp hc.symm
  have hdifference : (-(n / one) + 1 / 2 : ℚ) = ((oneHalf - n : Int) : ℚ) / one := by
    rw [one_half_eq, ← neg_div, ← add_div]
    push_cast
    ring
  rw [hdifference, Rat.floor_intCast_div_natCast, ← hc]
  have hcast : (0 : Int) < one := by exact_mod_cast hpos
  have hmul : ((c * one : Nat) : Int) = c * one := Int.natCast_mul c one
  apply Int.le_antisymm
  · rw [← Int.lt_add_one_iff, Int.ediv_lt_iff_lt_mul hcast, Int.add_mul, Int.neg_mul, Int.one_mul]
    omega
  · rw [Int.le_ediv_iff_mul_le hcast, Int.neg_mul]
    omega

theorem floor_neg_add_half_small (h : n ≤ oneHalf) : ⌊(-(n / one) + 1 / 2 : ℚ)⌋ = 0 := by
  have hlt : oneHalf - n < one := by
    have := one_eq_two_mul
    have := Binary64.one_pos
    omega
  rw [one_half_eq, ← neg_div, ← add_div, neg_add_eq_sub, ← Nat.cast_sub h,
    Rat.floor_natCast_div_natCast]
  exact Int.ediv_eq_zero_of_lt (Int.natCast_nonneg _) (Int.ofNat_lt.mpr hlt)

end

/-- The sum with one half is rounded up to a whole number: right below one half, and at the odd
numbers between `2 ^ 52` and `2 ^ 53` on both sides of zero. -/
def HalfLost (v : ℚ) : Prop :=
  v = 1 / 2 - 1 / 2 ^ 54 ∨ ∃ m : Nat, |v| = m ∧ m % 2 = 1 ∧ 2 ^ 52 < m ∧ m < 2 ^ 53

section
variable {n : Nat}

theorem abs_div_one_eq_iff (n m : Nat) : |(n / one : ℚ)| = m ↔ n = m * one := by
  rw [abs_of_nonneg (div_nonneg (Nat.cast_nonneg n) one_ratPos.le), div_eq_iff one_ratPos.ne']
  norm_cast

theorem div_one_eq_belowHalf_iff : (n / one : ℚ) = 1 / 2 - 1 / 2 ^ 54 ↔ n = belowHalf := by
  obtain ⟨u, hu, hone⟩ := exists_one_eq (k := 54) (by decide)
  have hcast : (one : ℚ) = 2 ^ 54 * u := by exact_mod_cast hone
  have hvalue : (1 / 2 - 1 / 2 ^ 54 : ℚ) * one = ((2 ^ 53 - 1) * u : Nat) := by
    rw [hcast]
    push_cast
    ring
  rw [div_eq_iff one_ratPos.ne', hvalue, belowHalf_eq hone, Nat.cast_inj]

theorem halfLost_iff :
    HalfLost (n / one) ↔ n = belowHalf ∨ ∃ m, n = m * one ∧ ¬ Settled m := by
  simp only [HalfLost, div_one_eq_belowHalf_iff, abs_div_one_eq_iff, not_settled_iff]

theorem halfLost_neg_iff : HalfLost (-(n / one)) ↔ ∃ m, n = m * one ∧ ¬ Settled m := by
  have hne : (-(n / one) : ℚ) ≠ 1 / 2 - 1 / 2 ^ 54 := by
    have hnonneg : (0 : ℚ) ≤ n / one := div_nonneg (Nat.cast_nonneg n) one_ratPos.le
    have hpos : (0 : ℚ) < 1 / 2 - 1 / 2 ^ 54 := by norm_num
    exact ((neg_nonpos.mpr hnonneg).trans_lt hpos).ne
  simp only [HalfLost, hne, false_or, abs_neg, abs_div_one_eq_iff, not_settled_iff]

end

/-- The number is rounded to the floor of its sum with one half, or to one more if the half is
lost. -/
structure RoundsHalfUp (x : Binary64) (v : ℚ) : Prop where
  kept : ¬ HalfLost v → (roundTo x 0).toRat? = some (⌊v + 1 / 2⌋ : ℚ)
  lost : HalfLost v → (roundTo x 0).toRat? = some (⌊v + 1 / 2⌋ + 1 : ℚ)

section
variable {n : Nat} (fits : Fits n)

theorem roundsHalfUp_positive : RoundsHalfUp (.finite false n fits) (n / one) := by
  constructor
  · rw [halfLost_iff, not_or, not_exists]
    rintro ⟨hne, hwhole⟩
    have hsettled : ∀ m, n = m * one → Settled m := fun m hm => not_not.mp fun h => hwhole m ⟨hm, h⟩
    rw [toRat?_roundTo_positive, sum_floor fits.2 hne hsettled, floor_add_half]
    rfl
  · intro hlost
    rw [toRat?_roundTo_positive, sum_floor_lost (halfLost_iff.mp hlost), floor_add_half]
    push_cast
    rfl

theorem roundsHalfUp_negative : RoundsHalfUp (.finite true n fits) (-(n / one)) := by
  by_cases hhalf : n ≤ oneHalf
  · have hkept : ¬ HalfLost (-(n / one)) := by
      rw [halfLost_neg_iff]
      rintro ⟨m, hm, hlost⟩
      rw [not_settled_iff] at hlost
      have hle := Nat.le_mul_of_pos_left one (show 0 < m by omega)
      have htwo := one_eq_two_mul
      have honepos := Binary64.one_pos
      omega
    refine ⟨fun _ => ?_, fun hlost => absurd hlost hkept⟩
    rw [toRat?_roundTo_small fits hhalf, floor_neg_add_half_small hhalf, Int.cast_zero]
  · have hlt : oneHalf < n := Nat.lt_of_not_le hhalf
    constructor
    · rw [halfLost_neg_iff, not_exists]
      intro hwhole
      have hsettled : ∀ m, n = m * one → Settled m :=
        fun m hm => not_not.mp fun h => hwhole m ⟨hm, h⟩
      rw [toRat?_roundTo_negative fits hlt, difference_ceil fits.2 hlt hsettled,
        floor_neg_add_half hlt.le]
      push_cast
      rfl
    · intro hlost
      obtain ⟨m, hm, hunsettled⟩ := halfLost_neg_iff.mp hlost
      rw [toRat?_roundTo_negative fits hlt, floor_neg_add_half hlt.le, hm,
        ← difference_ceil_lost hunsettled]
      generalize (nearest (m * one - oneHalf) 1 + one - 1) / one = c
      push_cast
      rw [neg_add_rev, neg_add_cancel_comm]

end

theorem floor_intCast_add_half (k : Int) : ⌊(k + 1 / 2 : ℚ)⌋ = k := by
  rw [Int.floor_intCast_add, Int.floor_eq_zero_iff.mpr ⟨by norm_num, by norm_num⟩, Int.add_zero]

/-- Without places a number is rounded to the nearest whole number, the middle towards the greater
one, and a whole number to itself. Where one half is lost the result is too great by one. -/
theorem roundTo_without_places {x : Binary64} {v : ℚ} (hx : x.toRat? = some v) :
    RoundsHalfUp x v ∧ ∀ k : Int, v = k → ¬ HalfLost v → (roundTo x 0).toRat? = some v := by
  have hround : RoundsHalfUp x v := by
    cases x with
    | infinite _ => contradiction
    | nan => contradiction
    | finite negative n fits =>
        obtain rfl := Option.some_inj.mp hx
        cases negative with
        | false => exact roundsHalfUp_positive fits
        | true => exact roundsHalfUp_negative fits
  refine ⟨hround, ?_⟩
  rintro k rfl hkept
  rw [hround.kept hkept, floor_intCast_add_half]

theorem roundTo_without_places_middle :
    Fits (5 * oneHalf) ∧ ∀ fits, (Binary64.finite true (5 * oneHalf) fits).toRat? = some (-5 / 2) ∧
      ¬ HalfLost (-5 / 2) ∧ (roundTo (.finite true (5 * oneHalf) fits) 0).toRat? = some (-2) := by
  have hfits : Fits (5 * oneHalf) := by decide +kernel
  have hvalue : (-((5 * oneHalf : Nat) / one) : ℚ) = -5 / 2 := by
    rw [Nat.cast_mul, mul_div_assoc, ← one_half_eq]
    norm_num
  have hkept : ¬ HalfLost (-5 / 2) := by
    rintro (h | ⟨m, h, -⟩)
    · norm_num at h
    · rw [abs_of_neg (by norm_num)] at h
      have hm : (5 : ℚ) = 2 * m := by linarith
      have hm : 5 = 2 * m := by exact_mod_cast hm
      omega
  have hfloor : ⌊(-5 / 2 + 1 / 2 : ℚ)⌋ = -2 := by
    rw [Int.floor_eq_iff]
    norm_num
  refine ⟨hfits, fun fits => ?_⟩
  have hx : (Binary64.finite true (5 * oneHalf) fits).toRat? = some (-5 / 2) :=
    congrArg some hvalue
  refine ⟨hx, hkept, ?_⟩
  rw [(roundTo_without_places hx).1.kept hkept, hfloor]
  norm_num

/-- The least odd number above `2 ^ 52` is rounded to its upper neighbour. -/
theorem roundTo_without_places_odd :
    ¬ ∀ (x : Binary64) (v : ℚ), x.toRat? = some v →
      (roundTo x 0).toRat? = some (⌊v + 1 / 2⌋ : ℚ) := by
  intro h
  have hfits : Fits ((2 ^ 52 + 1) * one) := by decide +kernel
  have hnext : Fits ((2 ^ 52 + 2) * one) := by decide +kernel
  have hround : ∀ fits fits', roundTo (.finite false ((2 ^ 52 + 1) * one) fits) 0 =
      .finite false ((2 ^ 52 + 2) * one) fits' := by decide +kernel
  have hvalue := h (.finite false _ hfits) ((2 ^ 52 + 1 : Nat) : Int)
    (congrArg some (mul_one_div_one _))
  rw [hround hfits hnext, floor_intCast_add_half] at hvalue
  have hvalue : ((2 ^ 52 + 2 : Nat) : ℚ) = ((2 ^ 52 + 1 : Nat) : Int) :=
    (mul_one_div_one _).symm.trans (Option.some_inj.mp hvalue)
  norm_num at hvalue

end Decimal
end Placeholders
