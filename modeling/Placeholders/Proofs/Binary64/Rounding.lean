import Mathlib.Tactic.Linarith
import Mathlib.Tactic.Ring
import Placeholders.Binary64

/-!
Rounding to the nearest number, for quotients of natural numbers. A number is its own rounding, the
rounding keeps the order, and it is off by at most half the distance between the numbers around.
-/

namespace Placeholders
namespace Binary64

/-- The count of quanta nearest to `num / den`, however large. -/
def nearest (num den : Nat) : Nat :=
  divNearest num (den * spacing (num / den)) * spacing (num / den)

theorem ofRatio_eq (negative : Bool) (num den : Nat) :
    ofRatio negative num den = ofQuanta negative (nearest num den) := rfl

theorem one_pos : 0 < one := by
  unfold one
  apply Nat.pow_pos
  decide

theorem spacing_eq (n : Nat) : spacing n = 2 ^ (n.log2 - 52) := rfl

theorem spacing_pos (n : Nat) : 0 < spacing n := Nat.two_pow_pos _

theorem spacing_dvd_spacing {a b : Nat} (h : a ≤ b) : spacing a ∣ spacing b := by
  by_cases ha : a = 0
  · subst ha
    exact Nat.one_dvd _
  · have hlog : a.log2 ≤ b.log2 :=
      (Nat.le_log2 (by omega)).mpr (Nat.le_trans (Nat.log2_self_le ha) h)
    rw [spacing_eq, spacing_eq]
    apply Nat.pow_dvd_pow
    omega

theorem lt_spacing (n : Nat) : n < 2 ^ 53 * spacing n := by
  rw [spacing_eq, ← Nat.pow_add]
  calc n < 2 ^ (n.log2 + 1) := Nat.lt_log2_self
    _ ≤ 2 ^ (53 + (n.log2 - 52)) := Nat.pow_le_pow_right (by decide) (by omega)

theorem le_of_spacing_ne_one {n : Nat} (h : spacing n ≠ 1) : 2 ^ 52 * spacing n ≤ n := by
  have hlog : 52 < n.log2 := by
    by_contra hle
    exact h (by rw [spacing_eq, Nat.sub_eq_zero_of_le (Nat.le_of_not_lt hle), Nat.pow_zero])
  have hn : n ≠ 0 := by
    intro hzero
    subst hzero
    exact absurd hlog (by decide)
  rw [spacing_eq, ← Nat.pow_add]
  calc 2 ^ (52 + (n.log2 - 52)) = 2 ^ n.log2 := by congr 1; omega
    _ ≤ n := Nat.log2_self_le hn

/-- The spacing is settled by the binade, or by being below all binades. -/
theorem spacing_eq_of {n u : Nat} (hu : ∃ k, u = 2 ^ k) (hlow : u = 1 ∨ 2 ^ 52 * u ≤ n)
    (hhigh : n < 2 ^ 53 * u) : spacing n = u := by
  obtain ⟨k, rfl⟩ := hu
  rw [← Nat.pow_add] at hlow hhigh
  by_cases hn : n = 0
  · subst hn
    cases hlow with
    | inl hone => simpa [spacing_eq] using hone.symm
    | inr hle => exact absurd hle (Nat.not_le_of_lt (Nat.two_pow_pos _))
  · have hlt : n.log2 < 53 + k := (Nat.log2_lt hn).mpr hhigh
    cases hlow with
    | inl hone =>
        obtain rfl : k = 0 := by
          rw [Nat.pow_eq_one] at hone
          omega
        rw [spacing_eq, Nat.sub_eq_zero_of_le (by omega)]
    | inr hle =>
        have hge : 52 + k ≤ n.log2 := (Nat.le_log2 hn).mpr hle
        rw [spacing_eq]
        congr 1
        omega

theorem spacing_isPow (n : Nat) : ∃ k, spacing n = 2 ^ k := ⟨_, spacing_eq n⟩

theorem divNearest_eq_of {num den q : Nat} (hden : 0 < den) (hlow : 2 * (q * den) ≤ 2 * num + den)
    (hhigh : 2 * num ≤ 2 * (q * den) + den)
    (htie : q % 2 = 1 → 2 * (q * den) < 2 * num + den ∧ 2 * num < 2 * (q * den) + den) :
    divNearest num den = q := by
  have hdiv := Nat.div_add_mod num den
  have hmod := Nat.mod_lt num hden
  rw [Nat.mul_comm] at hdiv
  have hle : q ≤ num / den + 1 := by
    by_contra hlt
    have := Nat.mul_le_mul_right den (show num / den + 2 ≤ q by omega)
    rw [Nat.add_mul] at this
    omega
  have hge : num / den ≤ q := by
    by_contra hlt
    have := Nat.mul_le_mul_right den (show q + 1 ≤ num / den by omega)
    rw [Nat.add_mul] at this
    omega
  obtain rfl | rfl : q = num / den ∨ q = num / den + 1 := by omega
  · simp only [divNearest]
    split
    · rfl
    · split <;> omega
  · rw [Nat.add_mul, Nat.one_mul] at hlow hhigh htie
    simp only [divNearest]
    split
    · omega
    · split <;> omega

theorem divNearest_spec (num : Nat) {den : Nat} (hden : 0 < den) :
    2 * (divNearest num den * den) ≤ 2 * num + den ∧
      2 * num ≤ 2 * (divNearest num den * den) + den ∧
      (divNearest num den % 2 = 1 → 2 * (divNearest num den * den) < 2 * num + den ∧
        2 * num < 2 * (divNearest num den * den) + den) := by
  have hdiv := Nat.div_add_mod num den
  have hmod := Nat.mod_lt num hden
  rw [Nat.mul_comm] at hdiv
  obtain ⟨q, hq⟩ : ∃ q, divNearest num den = q := ⟨_, rfl⟩
  have hcases : (q = num / den ∧ 2 * (num % den) ≤ den ∧ (q % 2 = 1 → 2 * (num % den) < den)) ∨
      (q = num / den + 1 ∧ den ≤ 2 * (num % den) ∧ (q % 2 = 1 → den < 2 * (num % den))) := by
    rw [← hq]
    simp only [divNearest]
    split
    · omega
    · split <;> omega
  rw [hq]
  cases hcases with
  | inl hdown =>
      obtain ⟨rfl, _, _⟩ := hdown
      omega
  | inr hup =>
      obtain ⟨rfl, _, _⟩ := hup
      rw [Nat.add_mul, Nat.one_mul]
      omega

theorem divNearest_mono {num den num' den' : Nat} (hden : 0 < den) (hden' : 0 < den')
    (h : num * den' ≤ num' * den) : divNearest num den ≤ divNearest num' den' := by
  obtain ⟨hlow, _, htie⟩ := divNearest_spec num hden
  obtain ⟨_, hhigh, htie'⟩ := divNearest_spec num' hden'
  generalize divNearest num den = m at *
  generalize divNearest num' den' = m' at *
  by_contra hlt
  -- Over the common denominator both quotients lie in the middle between the two results.
  have hP : 0 < den * den' := Nat.mul_pos hden hden'
  have hm : (m' + 1) * (den * den') ≤ m * (den * den') := Nat.mul_le_mul_right _ (by omega)
  have hlow' := Nat.mul_le_mul_right den' hlow
  have hhigh' := Nat.mul_le_mul_right den hhigh
  have e1 : 2 * (m * den) * den' = 2 * (m * (den * den')) := by ring
  have e2 : (2 * num + den) * den' = 2 * (num * den') + den * den' := by ring
  have e3 : 2 * num' * den = 2 * (num' * den) := by ring
  have e4 : (2 * (m' * den') + den') * den = 2 * (m' * (den * den')) + den * den' := by ring
  rw [e1, e2] at hlow'
  rw [e3, e4] at hhigh'
  rw [Nat.add_mul, Nat.one_mul] at hm
  have hnext : m = m' + 1 := by
    have hmul : m * (den * den') = (m' + 1) * (den * den') := by
      rw [Nat.add_mul, Nat.one_mul]
      omega
    exact Nat.eq_of_mul_eq_mul_right hP hmul
  by_cases hodd : m % 2 = 1
  · have hstrict := Nat.mul_lt_mul_of_pos_right (htie hodd).1 hden'
    rw [e1, e2] at hstrict
    omega
  · have hstrict := Nat.mul_lt_mul_of_pos_right (htie' (by omega)).2 hden
    rw [e3, e4] at hstrict
    omega

section
variable {num den : Nat}

theorem lt_succ_div_mul (hden : 0 < den) : num < (num / den + 1) * den :=
  Nat.lt_mul_of_div_lt (Nat.lt_succ_self _) hden

theorem lt_full (num : Nat) (hden : 0 < den) : num < 2 ^ 53 * (den * spacing (num / den)) :=
  calc num < (num / den + 1) * den := lt_succ_div_mul hden
    _ ≤ 2 ^ 53 * spacing (num / den) * den := Nat.mul_le_mul_right _ (lt_spacing _)
    _ = 2 ^ 53 * (den * spacing (num / den)) := by ring

theorem full_le (h : spacing (num / den) ≠ 1) :
    2 ^ 52 * (den * spacing (num / den)) ≤ num :=
  calc 2 ^ 52 * (den * spacing (num / den)) = 2 ^ 52 * spacing (num / den) * den := by ring
    _ ≤ num / den * den := Nat.mul_le_mul_right _ (le_of_spacing_ne_one h)
    _ ≤ num := Nat.div_mul_le_self _ _

theorem significand_le (hden : 0 < den) :
    divNearest num (den * spacing (num / den)) ≤ 2 ^ 53 := by
  have hD : 0 < den * spacing (num / den) := Nat.mul_pos hden (spacing_pos _)
  have hnum := lt_full num hden
  obtain ⟨hlow, _, _⟩ := divNearest_spec num hD
  by_contra hlt
  have := Nat.mul_le_mul_right (den * spacing (num / den)) (Nat.lt_of_not_le hlt)
  omega

theorem le_significand (num : Nat) (hden : 0 < den) (hu : spacing (num / den) ≠ 1) :
    2 ^ 52 ≤ divNearest num (den * spacing (num / den)) := by
  have hD : 0 < den * spacing (num / den) := Nat.mul_pos hden (spacing_pos _)
  have hnum := full_le hu
  obtain ⟨_, hhigh, _⟩ := divNearest_spec num hD
  by_contra hle
  have hlt := Nat.succ_le_of_lt (Nat.lt_of_not_le hle)
  have := Nat.mul_le_mul_right (den * spacing (num / den)) hlt
  rw [Nat.succ_mul] at this
  omega

theorem spacing_mul {m u : Nat} (hu : ∃ k, u = 2 ^ k) (hfull : u = 1 ∨ 2 ^ 52 ≤ m)
    (hm : m < 2 ^ 53) : spacing (m * u) = u := by
  apply spacing_eq_of hu
  · exact hfull.imp_right fun h => Nat.mul_le_mul_right u h
  · obtain ⟨k, rfl⟩ := hu
    exact Nat.mul_lt_mul_of_pos_right hm (Nat.two_pow_pos k)

theorem spacing_top {u : Nat} (hu : ∃ k, u = 2 ^ k) : spacing (2 ^ 53 * u) = 2 * u := by
  obtain ⟨k, rfl⟩ := hu
  have hpos := Nat.two_pow_pos k
  apply spacing_eq_of
  · exact ⟨k + 1, by ring⟩
  · right
    omega
  · omega

/-- The significand of a rounding is full or the spacing is the least. It can be one too large. -/
theorem exists_significand (num : Nat) (hden : 0 < den) : ∃ m,
    divNearest num (den * spacing (num / den)) = m ∧ nearest num den = m * spacing (num / den) ∧
      (spacing (num / den) = 1 ∨ 2 ^ 52 ≤ m) ∧ (m < 2 ^ 53 ∨ m = 2 ^ 53) := by
  refine ⟨_, rfl, rfl, ?_, Nat.lt_or_eq_of_le (significand_le hden)⟩
  by_cases hone : spacing (num / den) = 1
  · exact .inl hone
  · exact .inr (le_significand num hden hone)

theorem spacing_dvd_nearest (hden : 0 < den) : spacing (nearest num den) ∣ nearest num den := by
  obtain ⟨m, _, hnearest, hfull, htop⟩ := exists_significand num hden
  rw [hnearest]
  cases htop with
  | inl hlt =>
      rw [spacing_mul (spacing_isPow _) hfull hlt]
      exact Nat.dvd_mul_left _ _
  | inr heq =>
      rw [heq, spacing_top (spacing_isPow _)]
      exact ⟨2 ^ 52, by ring⟩

theorem nearest_eq_self {n : Nat} (hden : 0 < den) (hn : spacing n ∣ n) (h : num = n * den) :
    nearest num den = n := by
  subst h
  rw [nearest, Nat.mul_div_cancel _ hden]
  obtain ⟨m, hm⟩ := hn
  have hD : 0 < den * spacing n := Nat.mul_pos hden (spacing_pos n)
  have hnum : n * den = m * (den * spacing n) :=
    calc n * den = spacing n * m * den := by rw [← hm]
      _ = m * (den * spacing n) := by ring
  have hquotient : divNearest (n * den) (den * spacing n) = m := by
    apply divNearest_eq_of hD <;> omega
  rw [hquotient, Nat.mul_comm]
  exact hm.symm

theorem nearest_mono {num' den' : Nat} (hden : 0 < den) (hden' : 0 < den')
    (h : num * den' ≤ num' * den) : nearest num den ≤ nearest num' den' := by
  have hquotient : num / den ≤ num' / den' := by
    rw [Nat.le_div_iff_mul_le hden']
    refine Nat.le_of_mul_le_mul_right ?_ hden
    calc num / den * den' * den = num / den * den * den' := by ring
      _ ≤ num * den' := Nat.mul_le_mul_right _ (Nat.div_mul_le_self _ _)
      _ ≤ num' * den := h
  have hdvd := spacing_dvd_spacing hquotient
  have hpos := spacing_pos (num / den)
  by_cases hsame : spacing (num / den) = spacing (num' / den')
  · rw [nearest, nearest, hsame]
    refine Nat.mul_le_mul_right _ (divNearest_mono ?_ ?_ ?_)
    · exact Nat.mul_pos hden (spacing_pos _)
    · exact Nat.mul_pos hden' (spacing_pos _)
    · rw [← Nat.mul_assoc, ← Nat.mul_assoc]
      exact Nat.mul_le_mul_right _ h
  · -- A coarser spacing starts where the finer one ends.
    obtain ⟨c, hc⟩ := hdvd
    have hc2 : 2 ≤ c := by
      by_contra hlt
      have hpos' := spacing_pos (num' / den')
      obtain rfl | rfl : c = 0 ∨ c = 1 := by omega
      · omega
      · omega
    have hdouble : spacing (num / den) * 2 ≤ spacing (num' / den') := by
      rw [hc]
      exact Nat.mul_le_mul_left _ hc2
    have hbig := le_significand num' hden' (by omega)
    calc nearest num den ≤ 2 ^ 53 * spacing (num / den) :=
          Nat.mul_le_mul_right _ (significand_le hden)
      _ ≤ 2 ^ 52 * spacing (num' / den') := by omega
      _ ≤ nearest num' den' := Nat.mul_le_mul_right _ hbig

theorem nearest_congr {num' den' : Nat} (hden : 0 < den) (hden' : 0 < den')
    (h : num * den' = num' * den) : nearest num den = nearest num' den' :=
  Nat.le_antisymm (nearest_mono hden hden' h.le) (nearest_mono hden' hden h.ge)

theorem le_nearest {n : Nat} (hden : 0 < den) (hn : spacing n ∣ n) (h : n * den ≤ num) :
    n ≤ nearest num den := by
  have hself := nearest_eq_self Nat.one_pos hn (Nat.mul_one n).symm
  calc n = nearest n 1 := hself.symm
    _ ≤ nearest num den := nearest_mono Nat.one_pos hden (by omega)

theorem nearest_le {n : Nat} (hden : 0 < den) (hn : spacing n ∣ n) (h : num ≤ n * den) :
    nearest num den ≤ n := by
  have hself := nearest_eq_self Nat.one_pos hn (Nat.mul_one n).symm
  calc nearest num den ≤ nearest n 1 := nearest_mono hden Nat.one_pos (by omega)
    _ = n := hself

theorem nearest_error (num : Nat) (hden : 0 < den) :
    2 * (nearest num den * den) ≤ 2 * num + den * spacing (num / den) ∧
      2 * num ≤ 2 * (nearest num den * den) + den * spacing (num / den) := by
  have hD : 0 < den * spacing (num / den) := Nat.mul_pos hden (spacing_pos _)
  obtain ⟨hlow, hhigh, _⟩ := divNearest_spec num hD
  have hmul : nearest num den * den =
      divNearest num (den * spacing (num / den)) * (den * spacing (num / den)) := by
    rw [nearest]
    ring
  rw [hmul]
  exact ⟨hlow, hhigh⟩

/-- From the least full significand on, a rounding is off by at most the `2 ^ 53`th part. -/
theorem nearest_relative_error (hden : 0 < den) (h : 2 ^ 52 * den ≤ num) :
    2 ^ 53 * (nearest num den * den) ≤ 2 ^ 53 * num + num ∧
      2 ^ 53 * num ≤ 2 ^ 53 * (nearest num den * den) + num := by
  obtain ⟨hlow, hhigh⟩ := nearest_error num hden
  have hspacing : 2 ^ 52 * (den * spacing (num / den)) ≤ num := by
    by_cases hone : spacing (num / den) = 1
    · rw [hone, Nat.mul_one]
      exact h
    · exact full_le hone
  omega

end

end Binary64
end Placeholders
