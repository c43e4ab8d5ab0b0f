import Placeholders.Proofs.Binary64.Shortest
import Placeholders.Proofs.Decimal.Numeral
import Placeholders.Proofs.Decimal.Rounding

/-!
Decimal text with a fixed number of places has these places and loses no digit, as long as the
shortest decimal of the number has no more places.
-/

namespace Placeholders
namespace Decimal

open Binary64 (spacing shortest Fits one)
open Numeral

section
variable {d : Decimal}

theorem digits?_positional (h : 0 ≤ d.exponent) :
    digits? d.positional = some (d.coefficient * 10 ^ d.exponent.toNat) := by
  rw [positional, if_pos h]
  exact digits?_ofNat _

theorem positional_eq_point (h : d.exponent < 0) :
    ∃ fraction, d.positional = Numeral.ofNat (d.coefficient / 10 ^ (-d.exponent).toNat) ++
        '.' :: fraction ∧
      digits? fraction = some (d.coefficient % 10 ^ (-d.exponent).toNat) ∧
      fraction.length = (-d.exponent).toNat := by
  refine ⟨padded (-d.exponent).toNat (d.coefficient % 10 ^ (-d.exponent).toNat), ?_, ?_, ?_⟩
  · rw [positional, if_neg (Int.not_le.mpr h)]
    rfl
  · exact digits?_padded _ _
  · apply length_padded
    · omega
    · exact Nat.mod_lt _ (Nat.pow_pos (by decide))

theorem toRat_of_nonneg (h : 0 ≤ d.exponent) :
    d.toRat = (d.coefficient * 10 ^ d.exponent.toNat : Nat) := by
  rw [toRat, ← Int.toNat_of_nonneg h, zpow_natCast]
  push_cast
  rfl

theorem toRat_shortest_zero : (shortest 0).toRat = 0 := by
  rw [shortest, if_pos rfl, toRat, Nat.cast_zero, zero_mul]

/-- The value of a decimal whose last digit stands at some place, from the parts of its text. -/
theorem toRat_eq_add {p k : Nat} (h : d.exponent = -p) :
    d.toRat = (d.coefficient / 10 ^ p : Nat) +
      (10 ^ k * (d.coefficient % 10 ^ p) : Nat) / (10 ^ (p + k) : Nat) := by
  have hsplit := Nat.div_add_mod d.coefficient (10 ^ p)
  have hpow := ten_pow_ne_zero p
  have hpow' := ten_pow_ne_zero k
  have hdecimal : d = ⟨d.coefficient, -p⟩ := by rw [← h]
  rw [hdecimal, toRat_neg, Nat.pow_add]
  simp only
  generalize d.coefficient / 10 ^ p = w at *
  generalize d.coefficient % 10 ^ p = f at *
  generalize 10 ^ p = P at *
  generalize 10 ^ k = Q at *
  rw [← hsplit]
  push_cast
  field_simp

end

section
variable {n places : Nat} {h : Fits n}

theorem fixed_positive : fixed (.finite false n h) places =
    if places = 0 then (splitPoint (shortest n).positional).1
    else (splitPoint (shortest n).positional).1 ++
      '.' :: ((splitPoint (shortest n).positional).2.getD []).padRight places '0' := by
  by_cases hn : n = 0
  · subst hn
    rfl
  · have hzero : (Binary64.finite false n h).isZero = false := beq_eq_false_iff_ne.mpr hn
    rw [fixed, hzero]
    rfl

theorem fixed_negative (hn : n ≠ 0) :
    fixed (.finite true n h) places = '-' :: fixed (.finite false n h) places := by
  have hzero : (Binary64.finite true n h).isZero = false := beq_eq_false_iff_ne.mpr hn
  have htext : (Binary64.finite true n h).text = '-' :: (shortest n).positional := rfl
  rw [fixed_positive, fixed, hzero, if_neg Bool.false_ne_true, htext, splitPoint_minus]
  simp only
  split <;> rfl

theorem fixed_reads_of_nonneg (hexponent : 0 ≤ (shortest n).exponent) :
    unsigned? (fixed (.finite false n h) places) = some (shortest n).toRat ∧
      places? (fixed (.finite false n h) places) = if places = 0 then none else some places := by
  rw [fixed_positive]
  generalize shortest n = d at *
  have hdigits := digits?_positional hexponent
  have hrat := toRat_of_nonneg hexponent
  rw [splitPoint_digits hdigits]
  by_cases hplaces : places = 0
  · rw [if_pos hplaces, if_pos hplaces, unsigned?_digits hdigits, hrat, places?,
      splitPoint_digits hdigits]
    exact ⟨rfl, rfl⟩
  · have hpad : Text.padRight places '0' [] = List.replicate places '0' := rfl
    have hzeros := digits?_zeros (Nat.pos_of_ne_zero hplaces)
    rw [if_neg hplaces, if_neg hplaces, Option.getD_none, hpad, unsigned?_point hdigits hzeros,
      places?, splitPoint_point hdigits, hrat]
    simp

/-- Zeros are added behind the digits of a fraction, and no digit is taken away. -/
theorem fixed_of_neg (hexponent : (shortest n).exponent < 0) (hplaces : places ≠ 0) :
    ∃ (p : Nat) (fraction : Text), (shortest n).exponent = -p ∧ fraction.length = p ∧
      digits? fraction = some ((shortest n).coefficient % 10 ^ p) ∧
      fixed (.finite false n h) places = Numeral.ofNat ((shortest n).coefficient / 10 ^ p) ++
        '.' :: (fraction ++ List.replicate (places - p) '0') := by
  rw [fixed_positive, if_neg hplaces]
  generalize shortest n = d at *
  obtain ⟨fraction, htext, hfraction, hlength⟩ := positional_eq_point hexponent
  obtain ⟨p, hp⟩ := Int.eq_ofNat_of_zero_le (show 0 ≤ -d.exponent by omega)
  rw [hp, Int.toNat_natCast] at htext hfraction hlength
  refine ⟨p, fraction, by omega, hlength, hfraction, ?_⟩
  rw [htext, splitPoint_point (digits?_ofNat _), Option.getD_some, padRight_of_digits hfraction,
    hlength]

theorem unsigned?_fixed_of_neg (hexponent : (shortest n).exponent < 0) (hplaces : places ≠ 0) :
    unsigned? (fixed (.finite false n h) places) = some (shortest n).toRat := by
  obtain ⟨p, fraction, hp, hlength, hfraction, htext⟩ := fixed_of_neg (h := h) hexponent hplaces
  rw [htext, unsigned?_point (digits?_ofNat _) (digits?_append_zeros hfraction _),
    List.length_append, List.length_replicate, hlength, toRat_eq_add hp]

theorem fixed_reads_of_neg (hexponent : (shortest n).exponent < 0)
    (hfine : -places ≤ (shortest n).exponent) :
    unsigned? (fixed (.finite false n h) places) = some (shortest n).toRat ∧
      places? (fixed (.finite false n h) places) = if places = 0 then none else some places := by
  have hplaces : places ≠ 0 := by omega
  obtain ⟨p, fraction, hp, hlength, -, htext⟩ := fixed_of_neg (h := h) hexponent hplaces
  have hle : p + (places - p) = places := by omega
  refine ⟨unsigned?_fixed_of_neg hexponent hplaces, ?_⟩
  rw [htext, places?, splitPoint_point (digits?_ofNat _), if_neg hplaces, Option.map_some,
    List.length_append, List.length_replicate, hlength, hle]

theorem fixed_reads (hfine : -places ≤ (shortest n).exponent) :
    unsigned? (fixed (.finite false n h) places) = some (shortest n).toRat ∧
      places? (fixed (.finite false n h) places) = if places = 0 then none else some places := by
  by_cases hexponent : 0 ≤ (shortest n).exponent
  · exact fixed_reads_of_nonneg hexponent
  · exact fixed_reads_of_neg (Int.not_le.mp hexponent) hfine

end

theorem zeros_fixed (fits : Fits 0) (places : Nat) :
    Zeros (fixed (.finite false 0 fits) places) := by
  have hzero : Zeros ['0'] := zeros_replicate 1
  have hparts : splitPoint (shortest 0).positional = (['0'], none) := rfl
  rw [fixed_positive, hparts]
  split
  · exact hzero
  · rw [zeros_append, zeros_point, zeros_padRight]
    exact ⟨hzero, zeros_replicate 0⟩

section
variable {t : Text} {wholeWidth fractionWidth : Nat}

theorem pad_of_unsigned? {q : ℚ} (h : unsigned? t = some q) : pad t wholeWidth fractionWidth =
    (splitPoint t).1.padLeft wholeWidth '0' ++
      (match (splitPoint t).2 with
        | none => []
        | some fraction => '.' :: fraction.padRight fractionWidth '0') := by
  rw [pad]
  · rfl
  · rintro digits rfl
    rw [unsigned?_minus] at h
    contradiction

theorem pad_minus {q : ℚ} (h : unsigned? t = some q) :
    pad ('-' :: t) wholeWidth fractionWidth = '-' :: pad t wholeWidth fractionWidth := by
  rw [pad_of_unsigned? h]
  rfl

theorem zeros_pad {q : ℚ} (h : unsigned? t = some q) :
    Zeros (pad t wholeWidth fractionWidth) ↔ Zeros t := by
  have htext := splitPoint_text t
  rw [pad_of_unsigned? h]
  generalize splitPoint t = parts at *
  obtain ⟨whole, fraction⟩ := parts
  rw [← htext, zeros_append, zeros_append, zeros_padLeft]
  cases fraction with
  | none => exact Iff.rfl
  | some fraction => rw [zeros_point, zeros_point, zeros_padRight]

end

/-- The text spells the shortest decimal of a finite number, with exactly some places. -/
def Spells (places : Nat) (t : Text) (x : Binary64) : Prop :=
  ∃ negative n fits, ∃ d : Decimal, x = .finite negative n fits ∧
    (if n = 0 then d.toRat = 0 else d.IsShortest n) ∧
    rational? t = some (if negative then -d.toRat else d.toRat) ∧
    places? t = if places = 0 then none else some places

/-- A number around which numbers lie farther apart than decimals with some places, or zero. -/
def Sparse (places : Nat) : Binary64 → Prop
  | .finite _ n _ => n = 0 ∨ 2 ^ 53 * one < n * 10 ^ places
  | _ => False

section
variable {places : Nat}

/-- The shortest decimal has no more than some places if the number is nearest to a decimal with
these places, or if numbers lie farther apart than such decimals. -/
theorem neg_le_exponent {n : Nat} (fits : Fits n)
    (h : (∃ c, Binary64.nearest (c * one) (10 ^ places) = n) ∨ n = 0 ∨
      2 ^ 53 * one < n * 10 ^ places) : -places ≤ (shortest n).exponent := by
  by_cases hzero : n = 0
  · subst hzero
    rw [shortest, if_pos rfl]
    exact Int.neg_nonpos_of_nonneg (Int.natCast_nonneg places)
  · have hshortest := Binary64.isShortest_shortest fits.2 (Nat.pos_of_ne_zero hzero)
    cases h with
    | inl hnearest =>
        obtain ⟨c, hc⟩ := hnearest
        exact hshortest.neg_le_exponent hc
    | inr hsparse => exact hshortest.neg_le_exponent_of_lt fits.2 (hsparse.resolve_left hzero)

theorem spells_fixed {n : Nat} (negative : Bool) (fits : Fits n)
    (hfine : -places ≤ (shortest n).exponent) :
    Spells places (fixed (.finite negative n fits) places) (.finite negative n fits) := by
  obtain ⟨hvalue, hplaces⟩ := fixed_reads (h := fits) hfine
  by_cases hn : n = 0
  · subst hn
    have hzero : fixed (.finite negative 0 fits) places = fixed (.finite false 0 fits) places := rfl
    refine ⟨negative, 0, fits, shortest 0, rfl, toRat_shortest_zero, ?_, ?_⟩
    · rw [hzero, rational?_of_unsigned? hvalue, toRat_shortest_zero]
      cases negative <;> rfl
    · rw [hzero, hplaces]
  · refine ⟨negative, n, fits, shortest n, rfl, ?_, ?_⟩
    · rw [if_neg hn]
      exact Binary64.isShortest_shortest fits.2 (Nat.pos_of_ne_zero hn)
    · cases negative with
      | false => exact ⟨rational?_of_unsigned? hvalue, hplaces⟩
      | true =>
          rw [fixed_negative hn, places?_minus, rational?, hvalue]
          exact ⟨rfl, hplaces⟩

/-- Rounding and writing with the same places loses no digit and needs no other place. Beyond 22
places the powers of ten are no numbers, and the rounded number need not be near a decimal with
these places. -/
theorem fixed_roundTo {n : Nat} (negative : Bool) (fits : Fits n) (hplaces : places ≤ 300)
    (hlt : n < 10 ^ (300 - places) * one)
    (hnear : places ≤ 22 ∨ Sparse places (roundTo (.finite negative n fits) places)) :
    Spells places (fixed (roundTo (.finite negative n fits) places) places)
      (roundTo (.finite negative n fits) places) := by
  obtain ⟨sign, m, hm, hround, hexact⟩ := roundTo_finite negative hplaces fits hlt
  rw [hround] at hnear ⊢
  exact spells_fixed sign hm (neg_le_exponent hm (hnear.imp_left hexact))

theorem fixed_roundTo_eighth :
    Fits (one / 8) ∧ 2 ≤ 300 ∧ one / 8 < 10 ^ (300 - 2) * one ∧
      ∀ fits, fixed (roundTo (.finite true (one / 8) fits) 2) 2 = "-0.12".toList ∧
        Spells 2 (fixed (roundTo (.finite true (one / 8) fits) 2) 2)
          (roundTo (.finite true (one / 8) fits) 2) := by
  have hfits : Fits (one / 8) := by decide +kernel
  have hlt : one / 8 < 10 ^ (300 - 2) * one := by decide +kernel
  have htext : ∀ fits, fixed (roundTo (.finite true (one / 8) fits) 2) 2 = "-0.12".toList := by
    decide +kernel
  exact ⟨hfits, by decide, hlt, fun fits =>
    ⟨htext fits, fixed_roundTo true fits (by decide) hlt (.inl (by decide))⟩⟩

/-- The number nearest to `10 ^ -23` is rounded to its upper neighbour, whose shortest decimal has
39 places. -/
theorem fixed_roundTo_overlong :
    ¬ ∀ (places n : Nat) (negative : Bool) (fits : Fits n), places ≤ 300 →
      n < 10 ^ (300 - places) * one →
      Spells places (fixed (roundTo (.finite negative n fits) places) places)
        (roundTo (.finite negative n fits) places) := by
  intro h
  have hfits : Fits (0x182db34012b251 * Nat.pow 2 945) := by decide +kernel
  have hlt : 0x182db34012b251 * Nat.pow 2 945 < 10 ^ (300 - 23) * one := by decide +kernel
  have hplaces : ∀ fits : Fits (0x182db34012b251 * Nat.pow 2 945),
      places? (fixed (roundTo (.finite false _ fits) 23) 23) = some 39 := by decide +kernel
  obtain ⟨_, _, _, _, _, _, _, hplaces'⟩ := h 23 _ false hfits (by decide) hlt
  rw [hplaces hfits] at hplaces'
  exact absurd hplaces' (by decide)

end

end Decimal
end Placeholders
