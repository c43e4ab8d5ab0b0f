import Mathlib.Algebra.Group.Nat.Defs
import Mathlib.Logic.Function.Iterate
import Placeholders.Entropy.Checksum

/-!
What the checksum tells apart. A step of the division loses nothing, and four bytes fill the
register just once; so bytes of one length that differ only within four in a row have different
checksums.
-/

namespace Placeholders.Checksum

theorem getLsbD_shiftOut_last (r : BitVec 32) : (shiftOut r).getLsbD 31 = r.getLsbD 0 := by
  unfold shiftOut
  cases h : r.getLsbD 0 with
  | false => simp
  | true => simp

/-- The bit that has left the register can be seen at its other end. -/
theorem shiftOut_injective : Function.Injective shiftOut := by
  intro r s h
  have hlow : r.getLsbD 0 = s.getLsbD 0 := by
    rw [← getLsbD_shiftOut_last, h, getLsbD_shiftOut_last]
  have hhigh : r >>> 1 = s >>> 1 := by
    unfold shiftOut at h
    rw [hlow] at h
    split at h
    · exact (BitVec.xor_left_inj _).mp h
    · exact h
  apply BitVec.eq_of_getLsbD_eq
  intro i _
  cases i with
  | zero => exact hlow
  | succ i => simpa [Nat.add_comm] using congrArg (·.getLsbD i) hhigh

theorem shiftOut_xor_shiftLeft {w : BitVec 32} (h : 2 * w.toNat < 2 ^ 32) (r : BitVec 32) :
    shiftOut (r ^^^ w <<< 1) = shiftOut r ^^^ w := by
  have hback : w <<< 1 >>> 1 = w := by
    apply BitVec.eq_of_toNat_eq
    simp only [BitVec.toNat_ushiftRight, BitVec.toNat_shiftLeft, Nat.shiftLeft_eq,
      Nat.shiftRight_eq_div_pow]
    omega
  have hlow : (r ^^^ w <<< 1).getLsbD 0 = r.getLsbD 0 := by simp
  unfold shiftOut
  rw [hlow, BitVec.ushiftRight_xor_distrib, hback]
  split
  · rw [BitVec.xor_assoc, BitVec.xor_assoc, BitVec.xor_comm w]
  · rfl

/-- What stands `n` bits above the register comes down unchanged in `n` steps. -/
theorem iterate_shiftOut_xor_shiftLeft {n : Nat} {w : BitVec 32} (h : w.toNat * 2 ^ n < 2 ^ 32)
    (r : BitVec 32) : shiftOut^[n] (r ^^^ w <<< n) = shiftOut^[n] r ^^^ w := by
  induction n generalizing w with
  | zero => simp
  | succ n ih =>
      have hdouble : 2 * w.toNat < 2 ^ 32 := by
        refine Nat.lt_of_le_of_lt ?_ h
        rw [Nat.mul_comm]
        exact Nat.mul_le_mul_left _ (Nat.le_self_pow (Nat.succ_ne_zero n) 2)
      have hnat : (w <<< 1).toNat = w.toNat * 2 := by
        rw [BitVec.toNat_shiftLeft, Nat.shiftLeft_eq]
        omega
      have hstep : (w <<< 1).toNat * 2 ^ n < 2 ^ 32 := by
        rwa [hnat, Nat.mul_assoc, ← Nat.pow_succ']
      rw [Nat.add_comm n 1, BitVec.shiftLeft_add, Nat.add_comm 1 n, Function.iterate_succ_apply',
        ih hstep, shiftOut_xor_shiftLeft hdouble, Function.iterate_succ_apply']

theorem feed_eq (r : BitVec 32) (byte : UInt8) :
    feed r byte = shiftOut^[8] (r ^^^ byte.toBitVec.setWidth 32) := rfl

theorem feed_injective (byte : UInt8) : Function.Injective (feed · byte) := by
  intro r s h
  simp only [feed_eq] at h
  exact (BitVec.xor_left_inj _).mp (shiftOut_injective.iterate 8 h)

theorem foldl_feed_injective (bytes : List UInt8) :
    Function.Injective fun r => bytes.foldl feed r := by
  induction bytes with
  | nil => exact fun _ _ h => h
  | cons byte bytes ih => exact ih.comp (feed_injective byte)

/-- Bytes as one word, the first of them lowest. -/
def word : List UInt8 → BitVec 32
  | [] => 0
  | byte :: bytes => byte.toBitVec.setWidth 32 ^^^ word bytes <<< 8

theorem word_lt (bytes : List UInt8) : (word bytes).toNat < 2 ^ (8 * bytes.length) := by
  induction bytes with
  | nil => decide
  | cons byte bytes ih =>
      have hbyte : byte.toNat < 2 ^ (8 * bytes.length + 8) :=
        Nat.lt_of_lt_of_le byte.toNat_lt (Nat.pow_le_pow_right Nat.two_pos (Nat.le_add_left ..))
      have hbytes : (word bytes <<< 8).toNat < 2 ^ (8 * bytes.length + 8) := by
        rw [BitVec.toNat_shiftLeft, Nat.shiftLeft_eq, Nat.pow_add]
        exact Nat.lt_of_le_of_lt (Nat.mod_le _ _) (Nat.mul_lt_mul_of_pos_right ih (by decide))
      rw [word, BitVec.toNat_xor, List.length_cons, Nat.mul_succ]
      refine Nat.xor_lt_two_pow ?_ hbytes
      rwa [BitVec.toNat_setWidth_of_le (by decide)]

theorem word_mul_lt {bytes : List UInt8} (h : bytes.length ≤ 3) :
    (word bytes).toNat * 2 ^ 8 < 2 ^ 32 := by
  have hword := word_lt bytes
  have hpow : 2 ^ (8 * bytes.length) ≤ 2 ^ 24 := Nat.pow_le_pow_right Nat.two_pos (by omega)
  omega

theorem setWidth_word_cons (byte : UInt8) (bytes : List UInt8) :
    (word (byte :: bytes)).setWidth 8 = byte.toBitVec := by
  apply BitVec.eq_of_getLsbD_eq
  intro i hi
  simp [word, hi]

theorem word_cons_shiftRight (byte : UInt8) {bytes : List UInt8} (h : bytes.length ≤ 3) :
    word (byte :: bytes) >>> 8 = word bytes := by
  have hlt := word_mul_lt h
  have hbyte : byte.toBitVec.setWidth 32 >>> 8 = 0#32 := by
    apply BitVec.eq_of_getLsbD_eq
    intro i _
    simp
  have hbytes : word bytes <<< 8 >>> 8 = word bytes := by
    apply BitVec.eq_of_toNat_eq
    simp only [BitVec.toNat_ushiftRight, BitVec.toNat_shiftLeft, Nat.shiftLeft_eq,
      Nat.shiftRight_eq_div_pow]
    omega
  rw [word, BitVec.ushiftRight_xor_distrib, hbyte, hbytes, BitVec.zero_xor]

theorem word_injective {x y : List UInt8} (hlength : x.length = y.length) (h : x.length ≤ 4)
    (hword : word x = word y) : x = y := by
  induction x generalizing y with
  | nil => exact (List.length_eq_zero_iff.mp hlength.symm).symm
  | cons b x ih =>
      cases y with
      | nil => contradiction
      | cons c y =>
          obtain hlength : x.length = y.length := Nat.succ.inj hlength
          have hshort : x.length ≤ 3 := Nat.le_of_succ_le_succ h
          have hfirst : b = c := by
            rw [← UInt8.toBitVec_inj, ← setWidth_word_cons b x, hword, setWidth_word_cons]
          have hrest : word x = word y := by
            rw [← word_cons_shiftRight b hshort, hword, word_cons_shiftRight c (hlength ▸ hshort)]
          rw [hfirst, ih hlength (Nat.le_succ_of_le hshort) hrest]

/-- Up to four bytes are all in the register before the first bit has come down. -/
theorem foldl_feed_eq {bytes : List UInt8} (h : bytes.length ≤ 4) (r : BitVec 32) :
    bytes.foldl feed r = shiftOut^[8 * bytes.length] (r ^^^ word bytes) := by
  induction bytes generalizing r with
  | nil => simp [word]
  | cons byte bytes ih =>
      rw [List.length_cons] at h
      have hlt := word_mul_lt (Nat.le_of_succ_le_succ h)
      rw [List.foldl_cons, ih (Nat.le_of_succ_le h), feed_eq, ← iterate_shiftOut_xor_shiftLeft hlt,
        ← Function.iterate_add_apply, BitVec.xor_assoc, List.length_cons, Nat.mul_succ, word]

theorem crc32_append_ne {x y : List UInt8} (hlength : x.length = y.length) (h : x.length ≤ 4)
    (hne : x ≠ y) (before after : List UInt8) :
    crc32 (before ++ x ++ after) ≠ crc32 (before ++ y ++ after) := by
  intro hcrc
  have hy : y.length ≤ 4 := hlength ▸ h
  simp only [crc32, BitVec.not_inj, List.foldl_append] at hcrc
  have hsame := foldl_feed_injective after hcrc
  rw [foldl_feed_eq h, foldl_feed_eq hy, hlength] at hsame
  have hword := (BitVec.xor_right_inj _).mp (shiftOut_injective.iterate _ hsame)
  exact hne (word_injective hlength h hword)

/-- Bytes of one length differ in their checksum if all that differs lies within four bytes from
position `n` on. -/
theorem crc32_ne_of_window {a b : List UInt8} (hlength : a.length = b.length) {n : Nat}
    (hwindow : ∀ k, a[k]? ≠ b[k]? → n ≤ k ∧ k < n + 4) (hne : a ≠ b) : crc32 a ≠ crc32 b := by
  have hbefore : a.take n = b.take n := by
    apply List.ext_getElem?
    intro k
    rw [List.getElem?_take, List.getElem?_take]
    split
    · next hk =>
      by_contra hdiffer
      exact absurd (hwindow k hdiffer).1 (Nat.not_le.mpr hk)
    · rfl
  have hafter : (a.drop n).drop 4 = (b.drop n).drop 4 := by
    apply List.ext_getElem?
    intro k
    rw [List.drop_drop, List.drop_drop, List.getElem?_drop, List.getElem?_drop]
    by_contra hdiffer
    exact absurd (hwindow _ hdiffer).2 (Nat.not_lt.mpr (Nat.le_add_right ..))
  have hsplit (l : List UInt8) : l = l.take n ++ (l.drop n).take 4 ++ (l.drop n).drop 4 := by
    rw [List.append_assoc, List.take_append_drop, List.take_append_drop]
  have hmiddle : (a.drop n).take 4 ≠ (b.drop n).take 4 := by
    intro hsame
    apply hne
    rw [hsplit a, hsplit b, hbefore, hsame, hafter]
  rw [hsplit a, hsplit b, hbefore, hafter]
  refine crc32_append_ne ?_ ?_ hmiddle _ _
  · rw [List.length_take, List.length_take, List.length_drop, List.length_drop, hlength]
  · exact List.length_take_le ..

end Placeholders.Checksum
