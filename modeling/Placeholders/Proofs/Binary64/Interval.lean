import Placeholders.Proofs.Binary64.Rounding

/-!
The quotients that round to a given number. They reach half a spacing up and down, with both ends if
the significand is even; below a power of two they reach only a quarter down.
-/

namespace Placeholders
namespace Binary64

/-- Four times the distance from `n` down to the end of the quotients that round to it. -/
def gapBelow (n : Nat) : Nat :=
  if spacing n ≠ 1 ∧ n = Nat.pow 2 n.log2 then spacing n else 2 * spacing n

/-- `num / den` lies among the quotients that round to `n`. -/
def Within (n num den : Nat) : Prop :=
  if n / spacing n % 2 = 0 then
    (4 * n - gapBelow n) * den ≤ 4 * num ∧ 4 * num ≤ (4 * n + 2 * spacing n) * den
  else (4 * n - gapBelow n) * den < 4 * num ∧ 4 * num < (4 * n + 2 * spacing n) * den

theorem eq_pow_iff {n : Nat} (h : spacing n ≠ 1) :
    n = Nat.pow 2 n.log2 ↔ n = 2 ^ 52 * spacing n := by
  have hlog : 52 ≤ n.log2 := by
    by_contra hlt
    exact h (by rw [spacing_eq, Nat.sub_eq_zero_of_le (by omega), Nat.pow_zero])
  have hpow : 2 ^ 52 * spacing n = 2 ^ n.log2 := by
    rw [spacing_eq, ← Nat.pow_add]
    congr 1
    omega
  rw [hpow]
  exact Iff.rfl

theorem gapBelow_cases (n : Nat) :
    (spacing n ≠ 1 ∧ n = 2 ^ 52 * spacing n ∧ gapBelow n = spacing n) ∨
      ((spacing n = 1 ∨ n ≠ 2 ^ 52 * spacing n) ∧ gapBelow n = 2 * spacing n) := by
  by_cases hone : spacing n = 1
  · right
    exact ⟨.inl hone, if_neg (fun h => h.1 hone)⟩
  · by_cases hn : n = 2 ^ 52 * spacing n
    · left
      exact ⟨hone, hn, if_pos ⟨hone, (eq_pow_iff hone).mpr hn⟩⟩
    · right
      exact ⟨.inr hn, if_neg (fun h => hn ((eq_pow_iff hone).mp h.2))⟩

section
variable {num den n m u : Nat}

theorem gapBelow_mul (hu : ∃ k, u = 2 ^ k) (hfull : u = 1 ∨ 2 ^ 52 ≤ m) (hm : m < 2 ^ 53) :
    (u ≠ 1 ∧ m = 2 ^ 52 ∧ gapBelow (m * u) = u) ∨ gapBelow (m * u) = 2 * u := by
  have hspacing := spacing_mul hu hfull hm
  have hpos : 0 < u := by
    rw [← hspacing]
    exact spacing_pos _
  have hgap := gapBelow_cases (m * u)
  rw [hspacing] at hgap
  cases hgap with
  | inl hleast => exact .inl ⟨hleast.1, Nat.eq_of_mul_eq_mul_right hpos hleast.2.1, hleast.2.2⟩
  | inr hinner => exact .inr hinner.2

/-- A full significand, and a quotient at most half a spacing away that does not lie below the
binade. -/
theorem within_mul (hu : ∃ k, u = 2 ^ k) (hfull : u = 1 ∨ 2 ^ 52 ≤ m) (hm : m < 2 ^ 53)
    (hbottom : u ≠ 1 → 2 ^ 52 * (den * u) ≤ num)
    (hlow : 2 * (m * (den * u)) ≤ 2 * num + den * u)
    (hhigh : 2 * num ≤ 2 * (m * (den * u)) + den * u)
    (htie : m % 2 = 1 → 2 * (m * (den * u)) < 2 * num + den * u ∧
      2 * num < 2 * (m * (den * u)) + den * u) : Within (m * u) num den := by
  have hspacing := spacing_mul hu hfull hm
  have hpos : 0 < u := by
    rw [← hspacing]
    exact spacing_pos _
  have hupper : (4 * (m * u) + 2 * u) * den = 4 * (m * (den * u)) + 2 * (den * u) := by ring
  rw [Within, hspacing, Nat.mul_div_cancel _ hpos, hupper]
  cases gapBelow_mul hu hfull hm with
  | inl hleast =>
      obtain ⟨hone, rfl, hgap⟩ := hleast
      have hlower : (4 * (2 ^ 52 * u) - u) * den = 4 * (2 ^ 52 * (den * u)) - den * u := by
        rw [Nat.sub_mul]
        ring_nf
      have := hbottom hone
      rw [if_pos (by decide), hgap, hlower]
      omega
  | inr hgap =>
      have hlower : (4 * (m * u) - 2 * u) * den = 4 * (m * (den * u)) - 2 * (den * u) := by
        rw [Nat.sub_mul]
        ring_nf
      have hodd : m % 2 = 1 → den * u ≤ m * (den * u) := fun h =>
        Nat.le_mul_of_pos_left _ (by omega)
      rw [hgap, hlower]
      split <;> omega

/-- What rounds up to the next binade comes from the inside of its interval. -/
theorem within_top (hu : ∃ k, u = 2 ^ k) (hlt : num < 2 ^ 53 * (den * u))
    (hlow : 2 * (2 ^ 53 * (den * u)) ≤ 2 * num + den * u) : Within (2 ^ 53 * u) num den := by
  have hspacing := spacing_top hu
  have hpos := spacing_pos (2 ^ 53 * u)
  rw [hspacing] at hpos
  have hsignificand : 2 ^ 53 * u / (2 * u) = 2 ^ 52 := by
    rw [show 2 ^ 53 * u = 2 ^ 52 * (2 * u) by ring]
    exact Nat.mul_div_cancel _ hpos
  have hgap : gapBelow (2 ^ 53 * u) = 2 * u := by
    have hcases := gapBelow_cases (2 ^ 53 * u)
    rw [hspacing] at hcases
    cases hcases with
    | inl hleast => exact hleast.2.2
    | inr hinner => omega
  have hlower : (4 * (2 ^ 53 * u) - 2 * u) * den = 4 * (2 ^ 53 * (den * u)) - 2 * (den * u) := by
    rw [Nat.sub_mul]
    ring_nf
  have hupper : (4 * (2 ^ 53 * u) + 2 * (2 * u)) * den =
      4 * (2 ^ 53 * (den * u)) + 4 * (den * u) := by ring
  rw [Within, hspacing, hsignificand, if_pos (by decide), hgap, hlower, hupper]
  omega

theorem within_nearest (hden : 0 < den) : Within (nearest num den) num den := by
  have hD : 0 < den * spacing (num / den) := Nat.mul_pos hden (spacing_pos _)
  obtain ⟨m, hm, hnearest, hfull, htop⟩ := exists_significand num hden
  obtain ⟨hlow, hhigh, htie⟩ := divNearest_spec num hD
  rw [hm] at hlow hhigh htie
  rw [hnearest]
  cases htop with
  | inl hlt => exact within_mul (spacing_isPow _) hfull hlt full_le hlow hhigh htie
  | inr heq =>
      subst heq
      exact within_top (spacing_isPow _) (lt_full num hden) hlow

theorem Within.upper (h : Within n num den) :
    2 * num ≤ 2 * (n * den) + den * spacing n ∧
      (n / spacing n % 2 = 1 → 2 * num < 2 * (n * den) + den * spacing n) := by
  have hupper : (4 * n + 2 * spacing n) * den = 4 * (n * den) + 2 * (den * spacing n) := by ring
  rw [Within, hupper] at h
  split at h <;> omega

theorem Within.lower (h : Within n num den) :
    4 * (n * den) ≤ 4 * num + den * gapBelow n ∧
      (n / spacing n % 2 = 1 → gapBelow n ≤ 4 * n →
        4 * (n * den) < 4 * num + den * gapBelow n) := by
  have hlower : (4 * n - gapBelow n) * den = 4 * (n * den) - den * gapBelow n := by
    rw [Nat.sub_mul, Nat.mul_assoc, Nat.mul_comm den]
  rw [Within, hlower] at h
  have hle : gapBelow n ≤ 4 * n → den * gapBelow n ≤ 4 * (n * den) := fun hgap =>
    calc den * gapBelow n ≤ den * (4 * n) := Nat.mul_le_mul_left _ hgap
      _ = 4 * (n * den) := by ring
  split at h <;> omega

theorem nearest_eq_mul (hden : 0 < den) (hq : spacing (num / den) = u)
    (hlow : 2 * (m * (den * u)) ≤ 2 * num + den * u)
    (hhigh : 2 * num ≤ 2 * (m * (den * u)) + den * u)
    (htie : m % 2 = 1 → 2 * (m * (den * u)) < 2 * num + den * u ∧
      2 * num < 2 * (m * (den * u)) + den * u) : nearest num den = m * u := by
  have hD : 0 < den * u := by
    rw [← hq]
    exact Nat.mul_pos hden (spacing_pos _)
  rw [nearest, hq, divNearest_eq_of hD hlow hhigh htie]

/-- Below a power of two the spacing is half as wide, and the significand twice as large. -/
theorem nearest_below_pow (hden : 0 < den) (hone : spacing n ≠ 1) (hn : n = 2 ^ 52 * spacing n)
    (hlow : 4 * (n * den) ≤ 4 * num + den * spacing n) (hlt : num < n * den) :
    nearest num den = n := by
  obtain ⟨w, hw, hpow⟩ : ∃ w, spacing n = 2 * w ∧ ∃ k, w = 2 ^ k := by
    obtain ⟨k, hk⟩ := spacing_isPow n
    rw [hk] at hone ⊢
    obtain ⟨j, rfl⟩ : ∃ j, k = j + 1 := Nat.exists_eq_add_one.mpr
      (Nat.pos_of_ne_zero fun hzero => hone (by rw [hzero, Nat.pow_zero]))
    exact ⟨2 ^ j, by ring, j, rfl⟩
  have hn53 : n = 2 ^ 53 * w := by omega
  have hmul : n * den = 2 ^ 53 * (den * w) := by
    rw [hn53]
    ring
  have hwidth : den * spacing n = 2 * (den * w) := by
    rw [hw]
    ring
  rw [hmul] at hlow hlt
  rw [hwidth] at hlow
  have hq : spacing (num / den) = w := by
    apply spacing_eq_of hpow
    · right
      rw [Nat.le_div_iff_mul_le hden, Nat.mul_assoc, Nat.mul_comm w]
      omega
    · rw [Nat.div_lt_iff_lt_mul hden, Nat.mul_assoc, Nat.mul_comm w]
      exact hlt
  rw [hn53]
  apply nearest_eq_mul hden hq
  · omega
  · omega
  · intro hodd
    omega

theorem exists_eq_mul_spacing (hn : spacing n ∣ n) :
    ∃ m, n = m * spacing n ∧ (spacing n = 1 ∨ 2 ^ 52 ≤ m) ∧ m < 2 ^ 53 := by
  obtain ⟨m, hm⟩ := hn
  rw [Nat.mul_comm] at hm
  refine ⟨m, hm, ?_, ?_⟩
  · by_cases hone : spacing n = 1
    · exact .inl hone
    · have hle := le_of_spacing_ne_one hone
      right
      apply Nat.le_of_mul_le_mul_right _ (spacing_pos n)
      rw [← hm]
      exact hle
  · apply Nat.lt_of_mul_lt_mul_right (a := spacing n)
    rw [← hm]
    exact lt_spacing n

/-- A quotient of the interval that does not lie below the binade. -/
theorem nearest_eq_of_within_above (hden : 0 < den) (hn : spacing n ∣ n) (h : Within n num den)
    (hfit : spacing n = 1 ∨ 2 ^ 52 * (den * spacing n) ≤ num) : nearest num den = n := by
  obtain ⟨hhigh, hhighodd⟩ := h.upper
  obtain ⟨hlow, hlowodd⟩ := h.lower
  obtain ⟨m, hm, -, hm53⟩ := exists_eq_mul_spacing hn
  have hpow := spacing_isPow n
  have hgap := gapBelow_cases n
  have hsignificand : n / spacing n = m := Nat.div_eq_of_eq_mul_left (spacing_pos n) hm
  have hmul : n * den = m * (den * spacing n) := by
    rw [Nat.mul_comm den, ← Nat.mul_assoc, ← hm]
  rw [hsignificand, hmul] at hhighodd hlowodd
  rw [hmul] at hhigh hlow
  generalize spacing n = u at *
  have hq : spacing (num / den) = u := by
    apply spacing_eq_of hpow
    · refine hfit.imp_right fun hnum => ?_
      rw [Nat.le_div_iff_mul_le hden, Nat.mul_assoc, Nat.mul_comm u]
      exact hnum
    · have hle := Nat.mul_le_mul_right (den * u) (Nat.succ_le_of_lt hm53)
      rw [Nat.succ_mul] at hle
      have hD : 0 < den * u := Nat.mul_pos hden (hpow.elim fun k hk => hk ▸ Nat.two_pow_pos k)
      rw [Nat.div_lt_iff_lt_mul hden, Nat.mul_assoc, Nat.mul_comm u]
      omega
  rw [hm]
  cases hgap with
  | inl hleast =>
      rw [hleast.2.2] at hlow
      exact nearest_eq_mul hden hq (by omega) (by omega) (by omega)
  | inr hinner =>
      have hwidth : den * (2 * u) = 2 * (den * u) := by ring
      rw [hinner.2, hwidth] at hlow hlowodd
      apply nearest_eq_mul hden hq (by omega) (by omega)
      intro hodd
      have hle : u ≤ n := by
        rw [hm]
        exact Nat.le_mul_of_pos_left _ (by omega)
      have := hlowodd hodd (by omega)
      have := hhighodd hodd
      omega

theorem nearest_eq_of_within (hden : 0 < den) (hn : spacing n ∣ n) (h : Within n num den) :
    nearest num den = n := by
  by_cases hfit : spacing n = 1 ∨ 2 ^ 52 * (den * spacing n) ≤ num
  · exact nearest_eq_of_within_above hden hn h hfit
  · obtain ⟨hone, hlt⟩ := not_or.mp hfit
    obtain ⟨hlow, -⟩ := h.lower
    obtain ⟨m, hm, hfull, -⟩ := exists_eq_mul_spacing hn
    have hmul : n * den = m * (den * spacing n) := by
      rw [Nat.mul_comm den, ← Nat.mul_assoc, ← hm]
    have hle := Nat.mul_le_mul_right (den * spacing n) (hfull.resolve_left hone)
    cases gapBelow_cases n with
    | inl hleast =>
        obtain ⟨_, hpow, hgap⟩ := hleast
        rw [hgap] at hlow
        exact nearest_below_pow hden hone hpow hlow (by omega)
    | inr hinner =>
        obtain ⟨hne, hgap⟩ := hinner
        have hwidth : den * (2 * spacing n) = 2 * (den * spacing n) := Nat.mul_left_comm _ _ _
        have hm52 : 2 ^ 52 < m := by
          apply Nat.lt_of_le_of_ne (hfull.resolve_left hone)
          intro heq
          apply hne.resolve_left hone
          rw [heq, ← hm]
        have hmul52 := Nat.mul_le_mul_right (den * spacing n) (Nat.succ_le_of_lt hm52)
        rw [hgap, hwidth] at hlow
        omega

theorem nearest_eq_iff (hden : 0 < den) (hn : spacing n ∣ n) :
    nearest num den = n ↔ Within n num den := by
  constructor
  · intro h
    subst h
    exact within_nearest hden
  · exact nearest_eq_of_within hden hn

/-- What is closer than half a spacing above, or a quarter below, rounds to the number. -/
theorem nearest_eq_of_near (hn : spacing n ∣ n) (hpos : 0 < n)
    (hlow : 4 * n ≤ 4 * num + spacing n) (hhigh : 2 * num < 2 * n + spacing n) :
    nearest num 1 = n := by
  apply nearest_eq_of_within Nat.one_pos hn
  have hle := Nat.le_of_dvd hpos hn
  have hspacing := spacing_pos n
  rw [Within, Nat.mul_one, Nat.mul_one]
  cases gapBelow_cases n with
  | inl hleast =>
      obtain ⟨_, hpow, hgap⟩ := hleast
      have hsignificand : n / spacing n = 2 ^ 52 := Nat.div_eq_of_eq_mul_left hspacing hpow
      rw [hsignificand, if_pos (by decide), hgap]
      omega
  | inr hinner =>
      rw [hinner.2]
      split <;> omega

/-- Multiples that lie closer than the spacing at `n` meet the quotients that round to it. -/
theorem exists_within {step : Nat} (hstep : 0 < step) (h : 2 ^ 53 * step < n * den) :
    ∃ c, Within n (c * step) den := by
  refine ⟨divNearest (n * den) step, ?_⟩
  obtain ⟨hlow, hhigh, _⟩ := divNearest_spec (n * den) hstep
  generalize divNearest (n * den) step * step = x at *
  have hwide : step < den * spacing n := by
    have hlt := Nat.mul_le_mul_right den (lt_spacing n).le
    rw [Nat.mul_assoc, Nat.mul_comm (spacing n)] at hlt
    omega
  have hgap : 2 * step < den * gapBelow n := by
    cases gapBelow_cases n with
    | inl hleast =>
        obtain ⟨_, hn, hgap⟩ := hleast
        rw [hn, Nat.mul_assoc, Nat.mul_comm (spacing n)] at h
        rw [hgap]
        omega
    | inr hinner =>
        rw [hinner.2, Nat.mul_left_comm]
        omega
  have hlower : (4 * n - gapBelow n) * den = 4 * (n * den) - den * gapBelow n := by
    rw [Nat.sub_mul, Nat.mul_assoc, Nat.mul_comm den]
  have hupper : (4 * n + 2 * spacing n) * den = 4 * (n * den) + 2 * (den * spacing n) := by ring
  rw [Within, hlower, hupper]
  split <;> omega

end

end Binary64
end Placeholders
