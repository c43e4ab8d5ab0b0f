import Placeholders.Proofs.Binary64.Arithmetic

/-!
Powers by repeated squaring: every multiplication adds one rounding, so the power is above the exact
one by at most as many roundings as the exponent says.
-/

namespace Placeholders
namespace Binary64

/-- `x` is at least one, and above `base ^ exponent` by at most some roundings. -/
def PowerOf (base exponent roundings : Nat) (x : Binary64) : Prop :=
  ∃ n fits, x = finite false n fits ∧ one ≤ n ∧
    2 ^ (53 * roundings) * n ≤ (2 ^ 53 + 1) ^ roundings * base ^ exponent * one

section
variable {base e e' j j' k : Nat} {x y : Binary64}

theorem PowerOf.mul (hx : PowerOf base e j x) (hy : PowerOf base e' j' y) (hk : k < 1024)
    (hbound : (2 ^ 53 + 1) ^ (j + j') * base ^ (e + e') ≤ 2 ^ (53 * (j + j')) * 2 ^ k) :
    PowerOf base (e + e') (j + j' + 1) (x * y) := by
  obtain ⟨n, hn, rfl, hone, hle⟩ := hx
  obtain ⟨m, hm, rfl, hone', hle'⟩ := hy
  have hpos := one_pos
  have hproduct : 2 ^ (53 * (j + j')) * (n * m) ≤
      (2 ^ 53 + 1) ^ (j + j') * base ^ (e + e') * one * one :=
    calc 2 ^ (53 * (j + j')) * (n * m) = 2 ^ (53 * j) * n * (2 ^ (53 * j') * m) := by ring
      _ ≤ (2 ^ 53 + 1) ^ j * base ^ e * one * ((2 ^ 53 + 1) ^ j' * base ^ e' * one) :=
          Nat.mul_le_mul hle hle'
      _ = (2 ^ 53 + 1) ^ (j + j') * base ^ (e + e') * one * one := by ring
  have hnum : n * m ≤ 2 ^ k * one * one := by
    refine Nat.le_of_mul_le_mul_left ?_ (Nat.two_pow_pos (53 * (j + j')))
    calc 2 ^ (53 * (j + j')) * (n * m) ≤
          (2 ^ 53 + 1) ^ (j + j') * base ^ (e + e') * one * one := hproduct
      _ ≤ 2 ^ (53 * (j + j')) * 2 ^ k * one * one :=
          Nat.mul_le_mul_right one (Nat.mul_le_mul_right one hbound)
      _ = 2 ^ (53 * (j + j')) * (2 ^ k * one * one) := by ring
  have hlarge : one * one ≤ n * m := Nat.mul_le_mul hone hone'
  obtain ⟨fits, hmul⟩ := ofRatio_finite hk hpos hnum (false ^^ false)
  refine ⟨nearest (n * m) one, fits, (mul_eq hn hm false false).trans hmul, ?_, ?_⟩
  · exact le_nearest hpos spacing_dvd_one hlarge
  · have hfull : 2 ^ 52 * one ≤ n * m := (Nat.mul_le_mul_right one pow_le_one).trans hlarge
    obtain ⟨herror, _⟩ := nearest_relative_error hpos hfull
    refine Nat.le_of_mul_le_mul_right ?_ hpos
    calc 2 ^ (53 * (j + j' + 1)) * nearest (n * m) one * one =
          2 ^ (53 * (j + j')) * (2 ^ 53 * (nearest (n * m) one * one)) := by ring
      _ ≤ 2 ^ (53 * (j + j')) * (2 ^ 53 * (n * m) + n * m) := Nat.mul_le_mul_left _ herror
      _ = (2 ^ 53 + 1) * (2 ^ (53 * (j + j')) * (n * m)) := by ring
      _ ≤ (2 ^ 53 + 1) * ((2 ^ 53 + 1) ^ (j + j') * base ^ (e + e') * one * one) :=
          Nat.mul_le_mul_left _ hproduct
      _ = (2 ^ 53 + 1) ^ (j + j' + 1) * base ^ (e + e') * one * one := by ring

theorem powerOf_zero (base : Nat) : PowerOf base 0 0 (ofNat 1) := by
  obtain ⟨fits, h⟩ := ofNat_finite (n := 1) (by decide)
  refine ⟨1 * one, fits, h, ?_, ?_⟩
  · rw [Nat.one_mul]
  · generalize one = u
    simp

theorem bound_of_le (hbase : 0 < base) (hj : j ≤ e) (he : e' ≤ e)
    (h : (2 ^ 53 + 1) ^ e * base ^ e ≤ 2 ^ (53 * e) * 2 ^ k) :
    (2 ^ 53 + 1) ^ j * base ^ e' ≤ 2 ^ (53 * j) * 2 ^ k := by
  obtain ⟨i, rfl⟩ := Nat.exists_eq_add_of_le hj
  have hmore : 2 ^ (53 * i) ≤ (2 ^ 53 + 1) ^ i := by
    rw [Nat.pow_mul]
    exact Nat.pow_le_pow_left (by decide) i
  have hpower : base ^ e' ≤ base ^ (j + i) := Nat.pow_le_pow_right hbase he
  refine Nat.le_of_mul_le_mul_left ?_ (Nat.two_pow_pos (53 * i))
  calc 2 ^ (53 * i) * ((2 ^ 53 + 1) ^ j * base ^ e') ≤
        (2 ^ 53 + 1) ^ i * ((2 ^ 53 + 1) ^ j * base ^ (j + i)) :=
        Nat.mul_le_mul hmore (Nat.mul_le_mul_left _ hpower)
    _ = (2 ^ 53 + 1) ^ (j + i) * base ^ (j + i) := by ring
    _ ≤ 2 ^ (53 * (j + i)) * 2 ^ k := h
    _ = 2 ^ (53 * i) * (2 ^ (53 * j) * 2 ^ k) := by ring

/-- The result and the square after some bits of the exponent. -/
def powerState (x : Binary64) (e bits : Nat) : Binary64 × Binary64 :=
  (List.range bits).foldl
    (fun (result, square) i =>
      (if e.testBit i then result * square else result, square * square))
    (ofNat 1, x)

theorem powerState_zero (x : Binary64) (e : Nat) : powerState x e 0 = (ofNat 1, x) := by
  rw [powerState, List.range_zero, List.foldl_nil]

theorem powerState_succ (x : Binary64) (e bits : Nat) : powerState x e (bits + 1) =
    (if e.testBit bits then (powerState x e bits).1 * (powerState x e bits).2
      else (powerState x e bits).1,
      (powerState x e bits).2 * (powerState x e bits).2) := by
  rw [powerState, List.range_succ, List.foldl_append]
  rfl

/-- The square is large for the bits beyond the exponent, and not used there. -/
theorem powerState_spec (hx : PowerOf base 1 0 x) (hbase : 0 < base) (hk : k < 1024)
    (h : (2 ^ 53 + 1) ^ e * base ^ e ≤ 2 ^ (53 * e) * 2 ^ k) (bits : Nat) :
    PowerOf base (e % 2 ^ bits) (e % 2 ^ bits) (powerState x e bits).1 ∧
      (2 ^ bits ≤ e → PowerOf base (2 ^ bits) (2 ^ bits - 1) (powerState x e bits).2) := by
  induction bits with
  | zero =>
      simp only [powerState_zero, Nat.pow_zero, Nat.mod_one]
      exact ⟨powerOf_zero base, fun _ => hx⟩
  | succ bits ih =>
      obtain ⟨hresult, hsquare⟩ := ih
      have hpow := Nat.two_pow_pos bits
      have hmod : e % 2 ^ (bits + 1) = e % 2 ^ bits + 2 ^ bits * (e.testBit bits).toNat := by
        rw [Nat.mod_pow_succ, Nat.toNat_testBit]
      rw [powerState_succ, hmod]
      constructor
      · by_cases hbit : e.testBit bits
        · have hle : 2 ^ bits ≤ e := Nat.ge_two_pow_of_testBit hbit
          have hexponent : e % 2 ^ bits + 2 ^ bits ≤ e := by
            have hdiv := Nat.mod_add_div e (2 ^ bits)
            have hmul := Nat.le_mul_of_pos_right (2 ^ bits) (Nat.div_pos hle hpow)
            omega
          have hproduct := hresult.mul (hsquare hle) hk
            (bound_of_le hbase (by omega) hexponent h)
          have hroundings : e % 2 ^ bits + (2 ^ bits - 1) + 1 = e % 2 ^ bits + 2 ^ bits := by
            omega
          rw [hroundings] at hproduct
          rw [hbit, if_pos rfl, Bool.toNat_true, Nat.mul_one]
          exact hproduct
        · rw [Bool.not_eq_true] at hbit
          rw [hbit, if_neg Bool.false_ne_true, Bool.toNat_false, Nat.mul_zero, Nat.add_zero]
          exact hresult
      · intro hle
        rw [Nat.pow_succ] at hle ⊢
        have hproduct := (hsquare (by omega)).mul (hsquare (by omega)) hk
          (bound_of_le hbase (by omega) (by omega) h)
        have hexponent : 2 ^ bits + 2 ^ bits = 2 ^ bits * 2 := by omega
        have hroundings : 2 ^ bits - 1 + (2 ^ bits - 1) + 1 = 2 ^ bits * 2 - 1 := by omega
        rw [hexponent, hroundings] at hproduct
        exact hproduct

theorem powerOf_power (hx : PowerOf base 1 0 x) (hbase : 0 < base) (hk : k < 1024)
    (h : (2 ^ 53 + 1) ^ e * base ^ e ≤ 2 ^ (53 * e) * 2 ^ k) :
    PowerOf base e e (power x e) := by
  have hstate := (powerState_spec hx hbase hk h (e.log2 + 1)).1
  rw [Nat.mod_eq_of_lt Nat.lt_log2_self] at hstate
  exact hstate

end

end Binary64
end Placeholders
