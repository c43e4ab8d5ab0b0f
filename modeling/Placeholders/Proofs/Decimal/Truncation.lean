import Mathlib.Algebra.Order.Floor.Semifield
import Mathlib.Data.Rat.Floor
import Placeholders.Proofs.Decimal.Fixed

/-!
What is left of a number in its text. With places no digit of the shortest decimal is lost. Without
places the text has the whole part alone, so only whole numbers are kept, and a number between minus
one and zero leaves its sign in front of a zero.
-/

namespace Placeholders

namespace Binary64

theorem nearestTo_natCast (m : Nat) : nearestTo m = nearest (m * one) 1 := by
  have hdiv := nearestTo_div m Nat.one_pos
  rwa [Nat.cast_one, div_one] at hdiv

theorem nearestTo_one : nearestTo 1 = one := by
  have hone := nearestTo_natCast 1
  rwa [Nat.cast_one, nearest_eq_self Nat.one_pos (by rw [Nat.one_mul]; exact spacing_dvd_one)
    (Nat.mul_one _).symm, Nat.one_mul] at hone

theorem nearestTo_mono {p q : ℚ} (hp : 0 ≤ p) (h : p ≤ q) : nearestTo p ≤ nearestTo q := by
  have hpnum : (p.num.toNat : Int) = p.num := Int.toNat_of_nonneg (Rat.num_nonneg.mpr hp)
  have hqnum : (q.num.toNat : Int) = q.num :=
    Int.toNat_of_nonneg (Rat.num_nonneg.mpr (hp.trans h))
  have hcross := (Rat.le_iff _ _).mp h
  rw [← hpnum, ← hqnum] at hcross
  have hcross : p.num.toNat * q.den ≤ q.num.toNat * p.den := by exact_mod_cast hcross
  apply nearest_mono (Rat.den_pos p) (Rat.den_pos q)
  calc p.num.toNat * one * q.den = p.num.toNat * q.den * one := by ring
    _ ≤ q.num.toNat * p.den * one := Nat.mul_le_mul_right one hcross
    _ = q.num.toNat * one * p.den := by ring

/-- A whole number is rounded to a whole number. -/
theorem one_dvd_nearestTo (m : Nat) : one ∣ nearestTo m := by
  rw [nearestTo_natCast]
  by_cases hm : m ≤ 2 ^ 53
  · rw [nearest_eq_self Nat.one_pos (spacing_dvd_mul one_isPow hm) (Nat.mul_one _).symm]
    exact Nat.dvd_mul_left one m
  · apply one_dvd_of_le (spacing_dvd_nearest Nat.one_pos)
    apply le_nearest Nat.one_pos (spacing_dvd_mul one_isPow (Nat.le_refl _))
    rw [Nat.mul_one]
    exact Nat.mul_le_mul_right one (by omega)

end Binary64

namespace Decimal

open Binary64 (spacing shortest Fits one)
open Numeral

section
variable {d : Decimal}

theorem toRat_nonneg (d : Decimal) : 0 ≤ d.toRat :=
  mul_nonneg (Nat.cast_nonneg _) (zpow_nonneg (by decide) _)

theorem toRat_pos (h : 0 < d.coefficient) : 0 < d.toRat :=
  mul_pos (Nat.cast_pos.mpr h) (zpow_pos (by decide) _)

theorem floor_toRat_of_neg {p : Nat} (h : d.exponent = -p) :
    ⌊d.toRat⌋₊ = d.coefficient / 10 ^ p := by
  have hrat : d.toRat = d.coefficient / (10 ^ p : Nat) := by
    rw [← toRat_neg, ← h]
  rw [hrat, Nat.floor_div_eq_div]

theorem splitPoint_positional_fst (d : Decimal) :
    (splitPoint d.positional).1 = Numeral.ofNat ⌊d.toRat⌋₊ := by
  by_cases hexponent : 0 ≤ d.exponent
  · rw [splitPoint_digits (digits?_positional hexponent), toRat_of_nonneg hexponent,
      Nat.floor_natCast, positional, if_pos hexponent]
    rfl
  · obtain ⟨p, hp⟩ := Int.eq_ofNat_of_zero_le (show 0 ≤ -d.exponent by omega)
    obtain ⟨fraction, htext, -⟩ := positional_eq_point (Int.not_le.mp hexponent)
    rw [htext, splitPoint_point (digits?_ofNat _), hp, Int.toNat_natCast,
      floor_toRat_of_neg (p := p) (by omega)]

end

section
variable {n : Nat}

/-- The shortest decimal of a number is whole if and only if the number is. -/
theorem floor_shortest_iff (fits : Fits n) :
    ((⌊(shortest n).toRat⌋₊ : ℚ) = (shortest n).toRat) ↔ one ∣ n := by
  by_cases hzero : n = 0
  · subst hzero
    rw [toRat_shortest_zero, Nat.floor_zero, Nat.cast_zero]
    exact iff_of_true rfl (Nat.dvd_zero one)
  · have hshortest := Binary64.isShortest_shortest fits.2 (Nat.pos_of_ne_zero hzero)
    constructor
    · intro hwhole
      have hreads := hshortest.reads
      rw [← hwhole] at hreads
      rw [← hreads]
      exact Binary64.one_dvd_nearestTo _
    · rintro ⟨m, hm⟩
      have hreads : Binary64.nearest (m * one) (10 ^ 0) = n := by
        apply Binary64.nearest_eq_self (by decide) fits.2
        rw [hm, Nat.pow_zero, Nat.mul_one, Nat.mul_comm]
      have hexponent : 0 ≤ (shortest n).exponent := hshortest.neg_le_exponent hreads
      rw [toRat_of_nonneg hexponent, Nat.floor_natCast]

theorem toRat_shortest_lt_one_iff (fits : Fits n) (hpos : 0 < n) :
    (shortest n).toRat < 1 ↔ n < one := by
  have hshortest := Binary64.isShortest_shortest fits.2 hpos
  have hreads := hshortest.reads
  constructor
  · intro hlt
    have hle := Binary64.nearestTo_mono (toRat_nonneg _) hlt.le
    rw [hreads, Binary64.nearestTo_one] at hle
    -- The number one itself has a whole shortest decimal, and below one only zero is whole.
    refine Nat.lt_of_le_of_ne hle fun hone => ?_
    have hwhole := (floor_shortest_iff fits).mpr (by rw [hone])
    rw [Nat.floor_eq_zero.mpr hlt, Nat.cast_zero] at hwhole
    exact (toRat_pos (hshortest.coefficient_pos hpos)).ne hwhole
  · intro hlt
    by_contra hge
    have hle := Binary64.nearestTo_mono zero_le_one (not_lt.mp hge)
    rw [hreads, Binary64.nearestTo_one] at hle
    omega

end

/-- What is left of a decimal in a text with some places. -/
def kept (places : Nat) (d : Decimal) : ℚ := if places = 0 then ⌊d.toRat⌋₊ else d.toRat

def withSign (negative : Bool) (q : ℚ) : ℚ := if negative then -q else q

/-- A sign in front of no digit but zeros. -/
def SignedZero (t : Text) : Prop := ∃ u, t = '-' :: u ∧ Zeros u

theorem withSign_inj {negative : Bool} {p q : ℚ} :
    withSign negative p = withSign negative q ↔ p = q := by
  cases negative with
  | false => exact Iff.rfl
  | true => exact neg_inj

section
variable {n places : Nat} {h : Fits n}

theorem fixed_whole :
    fixed (.finite false n h) 0 = Numeral.ofNat ⌊(shortest n).toRat⌋₊ := by
  rw [fixed_positive, if_pos rfl, splitPoint_positional_fst]

theorem unsigned?_fixed :
    unsigned? (fixed (.finite false n h) places) = some (kept places (shortest n)) := by
  by_cases hplaces : places = 0
  · rw [hplaces, fixed_whole, kept, if_pos rfl]
    exact unsigned?_digits (digits?_ofNat _)
  · rw [kept, if_neg hplaces]
    by_cases hexponent : 0 ≤ (shortest n).exponent
    · exact (fixed_reads_of_nonneg hexponent).1
    · exact unsigned?_fixed_of_neg (Int.not_le.mp hexponent) hplaces

theorem rational?_fixed (negative : Bool) : rational? (fixed (.finite negative n h) places) =
    some (withSign negative (kept places (shortest n))) := by
  cases negative with
  | false => exact rational?_of_unsigned? unsigned?_fixed
  | true =>
      by_cases hn : n = 0
      · subst hn
        have hzero : kept places (shortest 0) = 0 := by
          rw [kept, toRat_shortest_zero, Nat.floor_zero, Nat.cast_zero, ite_self]
        have htext : fixed (.finite true 0 h) places = fixed (.finite false 0 h) places := rfl
        rw [htext, rational?_of_unsigned? unsigned?_fixed, hzero, withSign, if_pos rfl, neg_zero]
      · rw [fixed_negative hn, rational?, unsigned?_fixed]
        rfl

theorem kept_eq_iff (fits : Fits n) :
    kept places (shortest n) = (shortest n).toRat ↔ 0 < places ∨ one ∣ n := by
  rw [kept]
  split
  · next hplaces =>
      rw [floor_shortest_iff fits, hplaces]
      exact (or_iff_right (Nat.lt_irrefl 0)).symm
  · next hplaces => exact iff_of_true rfl (.inl (Nat.pos_of_ne_zero hplaces))

theorem zeros_fixed_iff (hpos : 0 < n) :
    Zeros (fixed (.finite false n h) places) ↔ places = 0 ∧ n < one := by
  constructor
  · intro hzeros
    have hkept : kept places (shortest n) = 0 := unsigned?_of_zeros unsigned?_fixed hzeros
    have hrat := toRat_pos ((Binary64.isShortest_shortest h.2 hpos).coefficient_pos hpos)
    by_cases hplaces : places = 0
    · rw [kept, if_pos hplaces, Nat.cast_eq_zero, Nat.floor_eq_zero,
        toRat_shortest_lt_one_iff h hpos] at hkept
      exact ⟨hplaces, hkept⟩
    · rw [kept, if_neg hplaces] at hkept
      exact absurd hkept hrat.ne'
  · rintro ⟨rfl, hlt⟩
    rw [fixed_whole, Nat.floor_eq_zero.mpr ((toRat_shortest_lt_one_iff h hpos).mpr hlt)]
    exact zeros_replicate 1

theorem signedZero_fixed_iff (negative : Bool) :
    SignedZero (fixed (.finite negative n h) places) ↔
      negative = true ∧ places = 0 ∧ 0 < n ∧ n < one := by
  -- Without a sign the text is a numeral, and a numeral has no sign in front.
  have hunsigned : ¬ SignedZero (fixed (.finite false n h) places) := by
    rintro ⟨u, hu, -⟩
    have hvalue : unsigned? (fixed (.finite false n h) places) = some (kept places (shortest n)) :=
      unsigned?_fixed
    rw [hu, unsigned?_minus] at hvalue
    contradiction
  cases negative with
  | false => exact iff_of_false hunsigned fun h => Bool.false_ne_true h.1
  | true =>
      by_cases hn : n = 0
      · subst hn
        exact iff_of_false hunsigned fun h => Nat.lt_irrefl 0 h.2.2.1
      · have hpos := Nat.pos_of_ne_zero hn
        have hsign : SignedZero (fixed (.finite true n h) places) ↔
            Zeros (fixed (.finite false n h) places) := by
          rw [fixed_negative hn]
          exact ⟨fun ⟨_, hu, hzeros⟩ => (List.cons.inj hu).2 ▸ hzeros, fun h => ⟨_, rfl, h⟩⟩
        rw [hsign, zeros_fixed_iff hpos]
        exact ⟨fun ⟨hplaces, hlt⟩ => ⟨rfl, hplaces, hpos, hlt⟩, fun h => ⟨h.2.1, h.2.2.2⟩⟩

end

/-- With places the text of a number spells its shortest decimal, whatever the number and however
many places. Without places it spells the whole part, so it is the number only if that is whole, and
between minus one and zero it is a zero with a sign. -/
theorem fixed_keeps_number {n : Nat} (negative : Bool) (fits : Fits n) (places : Nat) :
    (if n = 0 then (shortest n).toRat = 0 else (shortest n).IsShortest n) ∧
      rational? (fixed (.finite negative n fits) places) =
        some (withSign negative (kept places (shortest n))) ∧
      (rational? (fixed (.finite negative n fits) places) =
        some (withSign negative (shortest n).toRat) ↔ 0 < places ∨ one ∣ n) ∧
      (SignedZero (fixed (.finite negative n fits) places) ↔
        negative = true ∧ places = 0 ∧ 0 < n ∧ n < one) := by
  refine ⟨?_, rational?_fixed negative, ?_, signedZero_fixed_iff negative⟩
  · split
    · next hn => rw [hn, toRat_shortest_zero]
    · next hn => exact Binary64.isShortest_shortest fits.2 (Nat.pos_of_ne_zero hn)
  · rw [rational?_fixed, Option.some_inj, withSign_inj, kept_eq_iff fits]

theorem fixed_keeps_number_half :
    Fits (one / 2) ∧ ∀ fits, fixed (.finite true (one / 2) fits) 2 = "-0.50".toList ∧
      rational? (fixed (.finite true (one / 2) fits) 2) =
        some (withSign true (shortest (one / 2)).toRat) := by
  have hfits : Fits (one / 2) := by decide +kernel
  have htext : ∀ fits, fixed (.finite true (one / 2) fits) 2 = "-0.50".toList := by
    decide +kernel
  refine ⟨hfits, fun fits => ⟨htext fits, ?_⟩⟩
  obtain ⟨-, -, hkeeps, -⟩ := fixed_keeps_number true fits 2
  exact hkeeps.mpr (.inl (by decide))

/-- Minus one half without places is a zero with a sign. -/
theorem fixed_cuts_half :
    ¬ ∀ (negative : Bool) (n : Nat) (fits : Fits n) (places : Nat),
      rational? (fixed (.finite negative n fits) places) =
          some (withSign negative (shortest n).toRat) ∧
        ¬ SignedZero (fixed (.finite negative n fits) places) := by
  intro h
  have hfits : Fits (one / 2) := by decide +kernel
  have htext : ∀ fits, fixed (.finite true (one / 2) fits) 0 = ['-', '0'] := by decide +kernel
  obtain ⟨-, hsign⟩ := h true (one / 2) hfits 0
  rw [htext hfits] at hsign
  exact hsign ⟨['0'], rfl, zeros_replicate 1⟩

end Decimal
end Placeholders
