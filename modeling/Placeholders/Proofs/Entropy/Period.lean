import Mathlib.RingTheory.ZMod.UnitsCyclic
import Placeholders.Proofs.Entropy.Stream

/-!
The states of a random stream. The multiplier is 5 modulo 8, so its powers modulo `2 ^ 128` come
back after `2 ^ 126` steps and not before. The states of a seed are odd and come back with them, and
the streams of two seeds are never in the same state after equally many draws.
-/

namespace Placeholders

section
variable {a : Nat}

theorem orderOf_cast (ha : a % 8 = 5) (k : Nat) : orderOf (a : ZMod (2 ^ (k + 2))) = 2 ^ k := by
  obtain ⟨b, rfl⟩ : ∃ b, a = 1 + 4 * b := ⟨a / 4, by omega⟩
  have hodd : Odd (b : Int) := by
    rw [Int.odd_iff]
    omega
  have horder := ZMod.orderOf_one_add_four_mul b hodd k
  push_cast at horder ⊢
  exact horder

/-- The exponents of equal powers, for a base that is 5 modulo 8. -/
theorem pow_modEq_pow_iff (ha : a % 8 = 5) (k m n : Nat) :
    a ^ m ≡ a ^ n [MOD 2 ^ (k + 2)] ↔ m ≡ n [MOD 2 ^ k] := by
  have hcoprime : a.Coprime (2 ^ (k + 2)) := by
    apply Nat.Coprime.pow_right
    rw [Nat.coprime_two_right, Nat.odd_iff]
    omega
  have hunit : ((ZMod.unitOfCoprime a hcoprime : (ZMod (2 ^ (k + 2)))ˣ) : ZMod (2 ^ (k + 2))) = a :=
    ZMod.coe_unitOfCoprime a hcoprime
  have horder : orderOf (ZMod.unitOfCoprime a hcoprime) = 2 ^ k := by
    rw [← orderOf_units, hunit, orderOf_cast ha k]
  rw [← ZMod.natCast_eq_natCast_iff, Nat.cast_pow, Nat.cast_pow, ← hunit,
    ← Units.val_pow_eq_pow_val, ← Units.val_pow_eq_pow_val, Units.val_inj, pow_eq_pow_iff_modEq,
    horder]

end

namespace RandomStream

section
variable (s : RandomStream) (n : Nat)

theorem after_succ : s.after (n + 1) = (s.after n).advance := Function.iterate_succ_apply' _ n s

theorem toNat_state_advance :
    s.advance.state.toNat = s.state.toNat * multiplier.toNat % 2 ^ 128 :=
  BitVec.toNat_mul s.state multiplier

/-- Each draw multiplies the state. -/
theorem toNat_state_after :
    (s.after n).state.toNat = s.state.toNat * multiplier.toNat ^ n % 2 ^ 128 := by
  induction n with
  | zero =>
      rw [Nat.pow_zero, Nat.mul_one]
      exact (Nat.mod_eq_of_lt s.state.isLt).symm
  | succ n ih =>
      rw [after_succ, toNat_state_advance, ih, Nat.mod_mul_mod, Nat.mul_assoc, ← Nat.pow_succ]

end

theorem state_inj {s t : RandomStream} : s.state = t.state ↔ s = t := by
  cases s
  cases t
  rw [mk.injEq]

theorem toNat_state_inj {s t : RandomStream} : s.state.toNat = t.state.toNat ↔ s = t := by
  rw [BitVec.toNat_inj, state_inj]

theorem advance_injective : Function.Injective advance := by
  intro s t h
  have hproduct : s.state.toNat * multiplier.toNat ≡ t.state.toNat * multiplier.toNat
      [MOD 2 ^ 128] := by
    rw [Nat.ModEq, ← toNat_state_advance, h, toNat_state_advance]
  have hstate := Nat.ModEq.cancel_right_of_coprime (by decide) hproduct
  rw [Nat.ModEq, Nat.mod_eq_of_lt s.state.isLt, Nat.mod_eq_of_lt t.state.isLt] at hstate
  exact toNat_state_inj.mp hstate

theorem toNat_state_advance_mod (s : RandomStream) :
    s.advance.state.toNat % 4 = s.state.toNat % 4 := by
  have hdvd : 4 ∣ 2 ^ 128 := by decide
  have hmultiplier : multiplier.toNat % 4 = 1 := by decide
  rw [toNat_state_advance, Nat.mod_mod_of_dvd _ hdvd, Nat.mul_mod, hmultiplier, Nat.mul_one,
    Nat.mod_mod]

theorem toNat_state_after_mod (s : RandomStream) (n : Nat) :
    (s.after n).state.toNat % 4 = s.state.toNat % 4 := by
  induction n with
  | zero => rfl
  | succ n ih => rw [after_succ, toNat_state_advance_mod, ih]

theorem after_injective (n : Nat) : Function.Injective fun s : RandomStream => s.after n :=
  advance_injective.iterate n

/-- An odd state comes back after a multiple of `2 ^ 126` draws. -/
theorem after_eq_after_iff {s : RandomStream} (hodd : s.state.toNat % 2 = 1) (m n : Nat) :
    s.after m = s.after n ↔ m ≡ n [MOD 2 ^ 126] := by
  have hcoprime : Nat.gcd (2 ^ 128) s.state.toNat = 1 := by
    apply Nat.Coprime.pow_left
    rw [Nat.coprime_two_left, Nat.odd_iff]
    exact hodd
  rw [← pow_modEq_pow_iff (a := multiplier.toNat) (by decide) 126]
  constructor
  · intro h
    have hstate : s.state.toNat * multiplier.toNat ^ m ≡ s.state.toNat * multiplier.toNat ^ n
        [MOD 2 ^ 128] := by
      rw [Nat.ModEq, ← toNat_state_after, h, toNat_state_after]
    exact Nat.ModEq.cancel_left_of_coprime hcoprime hstate
  · intro h
    have hstate := h.mul_left s.state.toNat
    rw [← toNat_state_inj, toNat_state_after, toNat_state_after]
    exact hstate

theorem toNat_state_ofSeed (seed : Seed) : (ofSeed seed).state.toNat =
    seed.toNat <<< 64 ||| (seed * 0x9E3779B97F4A7C15).toNat ||| 3 := by
  rw [ofSeed, BitVec.toNat_or, BitVec.toNat_append]
  rfl

theorem toNat_state_ofSeed_mod (seed : Seed) : (ofSeed seed).state.toNat % 4 = 3 := by
  have hlow : ∀ r < 4, r ||| 3 = 3 := by decide
  rw [toNat_state_ofSeed]
  generalize seed.toNat <<< 64 ||| (seed * 0x9E3779B97F4A7C15).toNat = x
  calc (x ||| 3) % 2 ^ 2 = x % 2 ^ 2 ||| 3 % 2 ^ 2 := Nat.or_mod_two_pow
    _ = 3 := hlow _ (Nat.mod_lt x (by decide))

/-- The upper half of its first state is the seed. -/
theorem toNat_state_ofSeed_div (seed : Seed) :
    (ofSeed seed).state.toNat / 2 ^ 64 = seed.toNat := by
  have hmixed : (seed * 0x9E3779B97F4A7C15).toNat / 2 ^ 64 = 0 :=
    Nat.div_eq_of_lt (UInt64.toNat_lt _)
  have hupper : seed.toNat <<< 64 / 2 ^ 64 = seed.toNat := by
    rw [Nat.shiftLeft_eq, Nat.mul_div_cancel _ (Nat.two_pow_pos 64)]
  rw [toNat_state_ofSeed, Nat.or_div_two_pow, Nat.or_div_two_pow, hmixed, hupper, Nat.or_zero]
  exact Nat.or_zero seed.toNat

theorem ofSeed_injective : Function.Injective ofSeed := by
  intro seed other h
  rw [← UInt64.toNat_inj, ← toNat_state_ofSeed_div seed, h, toNat_state_ofSeed_div]

/-- No seed is weak. Every state of its stream is 3 modulo 4, the first `2 ^ 126` states differ and
come back in this order, and after equally many draws no other seed is in the same state. -/
theorem ofSeed_full_period (seed : Seed) :
    (∀ n, ((ofSeed seed).after n).state.toNat % 4 = 3) ∧
    (Set.Iio (2 ^ 126)).InjOn (fun n => ((ofSeed seed).after n).state) ∧
    (∀ m n, ((ofSeed seed).after m).state = ((ofSeed seed).after n).state ↔
      m ≡ n [MOD 2 ^ 126]) ∧
    ∀ other n, ((ofSeed other).after n).state = ((ofSeed seed).after n).state ↔ other = seed := by
  have hfour := toNat_state_ofSeed_mod seed
  have hperiod (m n : Nat) : ((ofSeed seed).after m).state = ((ofSeed seed).after n).state ↔
      m ≡ n [MOD 2 ^ 126] := by
    rw [state_inj, after_eq_after_iff (by omega)]
  refine ⟨fun n => ?_, fun m hm n hn h => ?_, hperiod, fun other n => ?_⟩
  · rw [toNat_state_after_mod, hfour]
  · exact Nat.ModEq.eq_of_lt_of_lt ((hperiod m n).mp h) hm hn
  · rw [state_inj, (after_injective n).eq_iff, ofSeed_injective.eq_iff]

end RandomStream
end Placeholders
