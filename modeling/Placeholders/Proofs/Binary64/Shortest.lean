import Mathlib.Algebra.Order.Field.Basic
import Mathlib.Data.Rat.Defs
import Mathlib.Tactic.FieldSimp
import Mathlib.Tactic.LinearCombination
import Placeholders.Binary64.Shortest
import Placeholders.Proofs.Binary64.Interval

/-!
The shortest decimal of a number is what its name says: it reads back as the number, no decimal with
a greater power of ten does, and of those with the same power of ten it is the nearest.
-/

namespace Placeholders

/-- The number that a decimal stands for. -/
def Decimal.toRat (d : Decimal) : ℚ := d.coefficient * 10 ^ d.exponent

namespace Binary64

/-- The count of quanta nearest to a rational number that is not negative. -/
def nearestTo (q : ℚ) : Nat := nearest (q.num.toNat * one) q.den

/-- The quarters of `10 ^ -1074` in a quantum. -/
def quantumQuarters : Nat := 4 * Nat.pow 5 1074

theorem nearestTo_div (a : Nat) {b : Nat} (hb : 0 < b) :
    nearestTo (a / b) = nearest (a * one) b := by
  have hcross : ((a / b : ℚ).num.toNat : ℚ) * b = a * (a / b : ℚ).den := by
    have hb' : (b : ℚ) ≠ 0 := by exact_mod_cast hb.ne'
    have hden : ((a / b : ℚ).den : ℚ) ≠ 0 := by exact_mod_cast (Rat.den_pos _).ne'
    have hnonneg : (0 : ℚ) ≤ a / b := div_nonneg (Nat.cast_nonneg _) (Nat.cast_nonneg _)
    have hcast : ((a / b : ℚ).num.toNat : ℚ) = (a / b : ℚ).num := by
      exact_mod_cast Int.toNat_of_nonneg (Rat.num_nonneg.mpr hnonneg)
    have hself := Rat.num_div_den (a / b : ℚ)
    rw [hcast]
    field_simp at hself
    linarith
  have hcross : (a / b : ℚ).num.toNat * b = a * (a / b : ℚ).den := by exact_mod_cast hcross
  apply nearest_congr (Rat.den_pos _) hb
  calc (a / b : ℚ).num.toNat * one * b = (a / b : ℚ).num.toNat * b * one := by ring
    _ = a * one * (a / b : ℚ).den := by rw [hcross]; ring

theorem quantumQuarters_pos : 0 < quantumQuarters := by
  unfold quantumQuarters
  apply Nat.mul_pos
  · decide
  · apply Nat.pow_pos
    decide

theorem four_mul_ten_pow {E : Nat} (hE : E = 1074) : 4 * Nat.pow 10 E = one * quantumQuarters := by
  have hone : one = Nat.pow 2 E := by
    unfold one
    rw [← hE]
  have hquarters : quantumQuarters = 4 * Nat.pow 5 E := by
    unfold quantumQuarters
    rw [← hE]
  have hpow : Nat.pow 10 E = Nat.pow 2 E * Nat.pow 5 E := Nat.mul_pow 2 5 E
  rw [hone, hquarters, hpow, Nat.mul_left_comm]

theorem quarters_eq (n : Nat) : quarters n = n * quantumQuarters := by
  unfold quarters quantumQuarters
  generalize Nat.pow 5 1074 = F
  ring

end Binary64

theorem Decimal.toRat_sub (c k E : Nat) :
    Decimal.toRat ⟨c, (k : Int) - E⟩ = (c * 10 ^ k : Nat) / (Nat.pow 10 E : Nat) := by
  have hten : (10 : ℚ) ≠ 0 := by decide
  rw [Decimal.toRat, zpow_sub₀ hten, zpow_natCast, zpow_natCast, Nat.pow_eq]
  push_cast
  ring

namespace Binary64

theorem nearestTo_toRat (c k : Nat) : nearestTo (Decimal.toRat ⟨c, (k : Int) - 1074⟩) =
    nearest (c * (4 * 10 ^ k)) quantumQuarters := by
  obtain ⟨E, hE⟩ : ∃ E : Nat, E = 1074 := ⟨_, rfl⟩
  have hfour := four_mul_ten_pow hE
  have hlowest : (1074 : Int) = E := by
    rw [hE]
    rfl
  have hten : 0 < Nat.pow 10 E := Nat.pow_pos (by decide)
  rw [hlowest, Decimal.toRat_sub, nearestTo_div _ hten]
  apply nearest_congr hten quantumQuarters_pos
  generalize Nat.pow 10 E = T at *
  generalize one = a at *
  generalize quantumQuarters = b at *
  calc c * 10 ^ k * a * b = c * 10 ^ k * (a * b) := by ring
    _ = c * (4 * 10 ^ k) * T := by rw [← hfour]; ring

theorem roundsTo_eq (n x : Nat) : roundsTo n x =
    if n / spacing n % 2 = 0 then
      decide ((4 * n - gapBelow n) * Nat.pow 5 1074 ≤ x) &&
        decide (x ≤ (4 * n + 2 * spacing n) * Nat.pow 5 1074)
    else decide ((4 * n - gapBelow n) * Nat.pow 5 1074 < x) &&
      decide (x < (4 * n + 2 * spacing n) * Nat.pow 5 1074) := rfl

section
variable {n : Nat}

theorem roundsTo_iff {x : Nat} (hn : spacing n ∣ n) :
    roundsTo n x = true ↔ nearest x quantumQuarters = n := by
  rw [nearest_eq_iff quantumQuarters_pos hn, roundsTo_eq, Within, quantumQuarters]
  generalize Nat.pow 5 1074 = F
  have hlow : (4 * n - gapBelow n) * (4 * F) = 4 * ((4 * n - gapBelow n) * F) := by ring
  have hhigh : (4 * n + 2 * spacing n) * (4 * F) = 4 * ((4 * n + 2 * spacing n) * F) := by ring
  rw [hlow, hhigh]
  split
  · simp only [Bool.and_eq_true, decide_eq_true_eq]
    omega
  · simp only [Bool.and_eq_true, decide_eq_true_eq]
    omega

theorem nearest_quarters (hn : spacing n ∣ n) : nearest (quarters n) quantumQuarters = n :=
  nearest_eq_self quantumQuarters_pos hn (quarters_eq n)

/-- What lies between a number and a decimal that reads as it reads as it too. -/
theorem roundsTo_of_le_of_le {x y : Nat} (hn : spacing n ∣ n) (h : roundsTo n x = true)
    (hxy : x ≤ y ∧ y ≤ quarters n ∨ quarters n ≤ y ∧ y ≤ x) : roundsTo n y = true := by
  rw [roundsTo_iff hn] at h ⊢
  have hmono {a b : Nat} (hab : a ≤ b) : nearest a quantumQuarters ≤ nearest b quantumQuarters :=
    nearest_mono quantumQuarters_pos quantumQuarters_pos (Nat.mul_le_mul_right _ hab)
  have hself := nearest_quarters hn
  cases hxy with
  | inl hbelow =>
      have := hmono hbelow.1
      have := hmono hbelow.2
      omega
  | inr habove =>
      have := hmono habove.1
      have := hmono habove.2
      omega

/-- How far a multiple of a quarter of `10 ^ -1074` is from `n` quanta. -/
def distance (n x : Nat) : Nat := ((x : Int) - quarters n).natAbs

section
variable {step c : Nat}

theorem mul_step_le (h : c ≤ quarters n / step) :
    c * step ≤ quarters n / step * step ∧ quarters n / step * step ≤ quarters n :=
  ⟨Nat.mul_le_mul_right step h, Nat.div_mul_le_self _ _⟩

theorem le_mul_step (hstep : 0 < step) (h : quarters n / step < c) :
    quarters n ≤ (quarters n / step + 1) * step ∧ (quarters n / step + 1) * step ≤ c * step :=
  ⟨(lt_succ_div_mul hstep).le, Nat.mul_le_mul_right step h⟩

theorem distance_div_le (h : c ≤ quarters n / step) :
    distance n (quarters n / step * step) ≤ distance n (c * step) := by
  have := mul_step_le h
  unfold distance
  omega

theorem distance_succ_div_le (hstep : 0 < step) (h : quarters n / step < c) :
    distance n ((quarters n / step + 1) * step) ≤ distance n (c * step) := by
  have := le_mul_step hstep h
  unfold distance
  omega

theorem distance_div_le_succ (hstep : 0 < step) (h : 2 * (quarters n % step) ≤ step) :
    distance n (quarters n / step * step) ≤ distance n ((quarters n / step + 1) * step) := by
  have hdiv := Nat.div_add_mod' (quarters n) step
  have hmod := Nat.mod_lt (quarters n) hstep
  rw [Nat.succ_mul, distance, distance]
  omega

theorem distance_succ_le_div (hstep : 0 < step) (h : step ≤ 2 * (quarters n % step)) :
    distance n ((quarters n / step + 1) * step) ≤ distance n (quarters n / step * step) := by
  have hdiv := Nat.div_add_mod' (quarters n) step
  have hmod := Nat.mod_lt (quarters n) hstep
  rw [Nat.succ_mul, distance, distance]
  omega

end

theorem four_mul_pow_pos (k : Nat) : 0 < 4 * 10 ^ k :=
  Nat.mul_pos (by decide) (Nat.pow_pos (by decide))

theorem nearestMultiple?_eq_none {k : Nat} (hn : spacing n ∣ n)
    (h : nearestMultiple? n k = none) (c : Nat) : roundsTo n (c * (4 * 10 ^ k)) = false := by
  by_contra hreads
  have hreads : roundsTo n (c * (4 * 10 ^ k)) = true := eq_true_of_ne_false hreads
  have hstep := four_mul_pow_pos k
  simp only [nearestMultiple?, Nat.pow_eq] at h
  generalize 4 * 10 ^ k = step at *
  by_cases hc : c ≤ quarters n / step
  · have hdown := roundsTo_of_le_of_le hn hreads (.inl (mul_step_le hc))
    rw [hdown] at h
    split at h <;> simp_all
  · have hup := roundsTo_of_le_of_le hn hreads
      (.inr (le_mul_step hstep (Nat.lt_of_not_le hc)))
    rw [hup] at h
    split at h <;> simp_all

theorem nearestMultiple?_eq_some {k c : Nat} (hn : spacing n ∣ n)
    (h : nearestMultiple? n k = some c) : roundsTo n (c * (4 * 10 ^ k)) = true ∧
      ∀ c', roundsTo n (c' * (4 * 10 ^ k)) = true →
        distance n (c * (4 * 10 ^ k)) ≤ distance n (c' * (4 * 10 ^ k)) := by
  have hstep := four_mul_pow_pos k
  simp only [nearestMultiple?, Nat.pow_eq] at h
  generalize 4 * 10 ^ k = step at *
  split at h
  · next hdown hup =>
    split at h
    · next hrest =>
      obtain rfl := Option.some.inj h
      refine ⟨hdown, fun c' _ => ?_⟩
      by_cases hc : c' ≤ quarters n / step
      · exact distance_div_le hc
      · exact (distance_div_le_succ hstep hrest.le).trans
          (distance_succ_div_le hstep (Nat.lt_of_not_le hc))
    · next hrest =>
      obtain rfl := Option.some.inj h
      refine ⟨hup, fun c' _ => ?_⟩
      by_cases hc : c' ≤ quarters n / step
      · exact (distance_succ_le_div hstep (Nat.le_of_not_lt hrest)).trans (distance_div_le hc)
      · exact distance_succ_div_le hstep (Nat.lt_of_not_le hc)
  · next hdown hup =>
    obtain rfl := Option.some.inj h
    refine ⟨hdown, fun c' hc' => ?_⟩
    by_cases hc : c' ≤ quarters n / step
    · exact distance_div_le hc
    · rw [roundsTo_of_le_of_le hn hc' (.inr (le_mul_step hstep (Nat.lt_of_not_le hc)))] at hup
      contradiction
  · next hdown hup =>
    obtain rfl := Option.some.inj h
    refine ⟨hup, fun c' hc' => ?_⟩
    by_cases hc : c' ≤ quarters n / step
    · rw [roundsTo_of_le_of_le hn hc' (.inl (mul_step_le hc))] at hdown
      contradiction
    · exact distance_succ_div_le hstep (Nat.lt_of_not_le hc)
  · contradiction

/-- The search finds the greatest power that has a decimal, and its nearest decimal. -/
theorem shortestFrom_spec (hn : spacing n ∣ n) (top : Nat) :
    ∃ k ≤ top, ∃ c, shortestFrom n top = ⟨c, (k : Int) - 1074⟩ ∧
      roundsTo n (c * (4 * 10 ^ k)) = true ∧
      (∀ k' c', k < k' → k' ≤ top → roundsTo n (c' * (4 * 10 ^ k')) = false) ∧
      ∀ c', roundsTo n (c' * (4 * 10 ^ k)) = true →
        distance n (c * (4 * 10 ^ k)) ≤ distance n (c' * (4 * 10 ^ k)) := by
  induction top with
  | zero =>
      have hself : quarters n / 4 * (4 * 10 ^ 0) = quarters n := by
        rw [quarters, Nat.pow_zero, Nat.mul_one, Nat.mul_assoc 4,
          Nat.mul_div_cancel_left _ (by decide), Nat.mul_comm]
      have hreads : roundsTo n (quarters n) = true := (roundsTo_iff hn).mpr (nearest_quarters hn)
      refine ⟨0, Nat.le_refl 0, quarters n / 4, rfl, ?_, ?_, ?_⟩
      · rw [hself]
        exact hreads
      · intro k' c' hpos hzero
        omega
      · intro c' hc'
        rw [hself, distance, Int.sub_self]
        exact Nat.zero_le _
  | succ top ih =>
      rw [shortestFrom]
      split
      · next c hsome =>
        obtain ⟨hreads, hclosest⟩ := nearestMultiple?_eq_some hn hsome
        refine ⟨top + 1, Nat.le_refl _, c, rfl, hreads, ?_, hclosest⟩
        intro k' c' hlt hle
        omega
      · next hnone =>
        obtain ⟨k, hk, c, heq, hreads, hcoarsest, hclosest⟩ := ih
        refine ⟨k, by omega, c, heq, hreads, ?_, hclosest⟩
        intro k' c' hlt hle
        by_cases htop : k' = top + 1
        · rw [htop]
          exact nearestMultiple?_eq_none hn hnone c'
        · exact hcoarsest k' c' hlt (by omega)

theorem spacing_le (hn : spacing n ∣ n) (hpos : 0 < n) : spacing n ≤ n := Nat.le_of_dvd hpos hn

theorem two_mul_le_of_roundsTo {x : Nat} (hn : spacing n ∣ n) (hpos : 0 < n)
    (h : roundsTo n x = true) : 2 * x ≤ 3 * quarters n := by
  rw [roundsTo_iff hn, nearest_eq_iff quantumQuarters_pos hn] at h
  have hupper := h.upper.1
  have hwidth := Nat.mul_le_mul_left quantumQuarters (spacing_le hn hpos)
  rw [Nat.mul_comm _ n] at hwidth
  rw [quarters_eq]
  omega

theorem quarters_lt (n : Nat) : quarters n < 10 ^ (Numeral.ofNat (quarters n)).length := by
  apply (Nat.length_toDigits_le_iff (by decide) ?_).mp (Nat.le_refl _)
  exact Nat.length_toDigits_pos

/-- No power beyond the digits of a number has a decimal that reads as it. -/
theorem roundsTo_eq_false {k : Nat} (hn : spacing n ∣ n) (hpos : 0 < n)
    (hk : (Numeral.ofNat (quarters n)).length ≤ k) (c : Nat) :
    roundsTo n (c * (4 * 10 ^ k)) = false := by
  by_contra hreads
  have hreads : roundsTo n (c * (4 * 10 ^ k)) = true := eq_true_of_ne_false hreads
  by_cases hc : c = 0
  · subst hc
    rw [Nat.zero_mul, roundsTo_iff hn] at hreads
    have hzero : nearest 0 quantumQuarters = 0 :=
      nearest_eq_self quantumQuarters_pos (Nat.dvd_zero _) (Nat.zero_mul _).symm
    omega
  · have hle := two_mul_le_of_roundsTo hn hpos hreads
    have hlt : quarters n < 10 ^ k :=
      Nat.lt_of_lt_of_le (quarters_lt n) (Nat.pow_le_pow_right (by decide) hk)
    have hmul := Nat.le_mul_of_pos_left (4 * 10 ^ k) (Nat.pos_of_ne_zero hc)
    generalize quarters n = q at *
    omega

end

end Binary64

/-- A shortest decimal of `n` quanta: it reads as them, no decimal with a greater exponent does, and
with its exponent none is nearer. -/
structure Decimal.IsShortest (d : Decimal) (n : Nat) : Prop where
  reads : Binary64.nearestTo d.toRat = n
  coarsest : ∀ d' : Decimal, Binary64.nearestTo d'.toRat = n → d'.exponent ≤ d.exponent
  closest : ∀ d' : Decimal, Binary64.nearestTo d'.toRat = n → d'.exponent = d.exponent →
    |d.toRat - n / Binary64.one| ≤ |d'.toRat - n / Binary64.one|

theorem Decimal.eq_sub {d : Decimal} (h : -1074 ≤ d.exponent) :
    ∃ k : Nat, d = ⟨d.coefficient, (k : Int) - 1074⟩ := by
  obtain ⟨k, hk⟩ := Int.eq_ofNat_of_zero_le (show 0 ≤ d.exponent + 1074 by omega)
  refine ⟨k, ?_⟩
  rw [← hk, Int.add_sub_cancel]

namespace Binary64

section
variable {n : Nat}

theorem nearestTo_eq_iff (hn : spacing n ∣ n) (c k : Nat) :
    nearestTo (Decimal.toRat ⟨c, (k : Int) - 1074⟩) = n ↔
      roundsTo n (c * (4 * 10 ^ k)) = true := by
  rw [nearestTo_toRat, roundsTo_iff hn]

theorem abs_toRat_sub (n c k : Nat) {E : Nat} (hE : E = 1074) :
    |Decimal.toRat ⟨c, (k : Int) - 1074⟩ - n / one| =
      distance n (c * (4 * 10 ^ k)) / (4 * Nat.pow 10 E : Nat) := by
  have hfour := four_mul_ten_pow hE
  have hlowest : (1074 : Int) = E := by
    rw [hE]
    rfl
  have hpow : 0 < Nat.pow 10 E := Nat.pow_pos (by decide)
  have hone := one_pos
  rw [hlowest, Decimal.toRat_sub, distance, quarters_eq]
  generalize Nat.pow 10 E = T at *
  generalize one = a at *
  generalize quantumQuarters = b at *
  have hT : (0 : ℚ) < T := by exact_mod_cast hpow
  have ha : (0 : ℚ) < a := by exact_mod_cast hone
  have hfour : 4 * (T : ℚ) = a * b := by exact_mod_cast hfour
  have hsub : ((c * 10 ^ k : Nat) / T - n / a : ℚ) =
      ((c * (4 * 10 ^ k) : Nat) - (n * b : Nat)) / (4 * T : Nat) := by
    push_cast
    field_simp
    linear_combination (-n : ℚ) * hfour
  rw [hsub, abs_div, Nat.abs_cast, Nat.cast_natAbs]
  push_cast
  rfl

theorem isShortest_shortest (hn : spacing n ∣ n) (hpos : 0 < n) : (shortest n).IsShortest n := by
  rw [shortest, if_neg (Nat.pos_iff_ne_zero.mp hpos)]
  obtain ⟨k, _, c, heq, hreads, hcoarsest, hclosest⟩ :=
    shortestFrom_spec hn (Numeral.ofNat (quarters n)).length
  rw [heq]
  constructor
  · exact (nearestTo_eq_iff hn c k).mpr hreads
  · intro d' hd'
    by_cases hlow : -1074 ≤ d'.exponent
    · obtain ⟨k', hk'⟩ := Decimal.eq_sub hlow
      rw [hk'] at hd' ⊢
      have hreads' := (nearestTo_eq_iff hn _ k').mp hd'
      by_contra hlt
      have hlt : k < k' := by
        simp only at hlt
        omega
      by_cases htop : k' ≤ (Numeral.ofNat (quarters n)).length
      · rw [hcoarsest k' _ hlt htop] at hreads'
        contradiction
      · rw [roundsTo_eq_false hn hpos (by omega)] at hreads'
        contradiction
    · simp only
      omega
  · intro d' hd' hexponent
    obtain ⟨c', e⟩ := d'
    obtain rfl : e = (k : Int) - 1074 := hexponent
    obtain ⟨E, hE⟩ : ∃ E : Nat, E = 1074 := ⟨_, rfl⟩
    rw [abs_toRat_sub n _ _ hE, abs_toRat_sub n _ _ hE]
    apply div_le_div_of_nonneg_right _ (Nat.cast_nonneg _)
    exact_mod_cast hclosest _ ((nearestTo_eq_iff hn _ k).mp hd')

end

end Binary64

namespace Decimal

theorem toRat_neg (c places : Nat) : toRat ⟨c, -places⟩ = c / (10 ^ places : Nat) := by
  rw [toRat, zpow_neg, zpow_natCast, div_eq_mul_inv]
  push_cast
  rfl

variable {n places : Nat} {d : Decimal}

theorem IsShortest.neg_le_exponent {c : Nat} (h : d.IsShortest n)
    (hreads : Binary64.nearest (c * Binary64.one) (10 ^ places) = n) : -places ≤ d.exponent := by
  apply h.coarsest ⟨c, -places⟩
  rw [toRat_neg, Binary64.nearestTo_div _ (Nat.pow_pos (by decide))]
  exact hreads

/-- Where the numbers lie farther apart than the decimals with some places, each number has one. -/
theorem IsShortest.neg_le_exponent_of_lt (h : d.IsShortest n) (hn : Binary64.spacing n ∣ n)
    (hlt : 2 ^ 53 * Binary64.one < n * 10 ^ places) : -places ≤ d.exponent := by
  obtain ⟨c, hc⟩ := Binary64.exists_within Binary64.one_pos hlt
  have hpow : 0 < 10 ^ places := Nat.pow_pos (by decide)
  exact h.neg_le_exponent (Binary64.nearest_eq_of_within hpow hn hc)

theorem IsShortest.coefficient_pos (h : d.IsShortest n) (hpos : 0 < n) : 0 < d.coefficient := by
  by_contra hzero
  have hrat : d.toRat = (0 : Nat) / (1 : Nat) := by
    rw [toRat, Nat.eq_zero_of_not_pos hzero]
    simp
  have hreads := h.reads
  rw [hrat, Binary64.nearestTo_div _ Nat.one_pos, Nat.zero_mul,
    Binary64.nearest_eq_self Nat.one_pos (Nat.dvd_zero _) (Nat.zero_mul 1).symm] at hreads
  omega

end Decimal
end Placeholders
