import Placeholders.Entropy.Seed
import Placeholders.Proofs.Entropy.Checksum

/-!
Seeds of runs. Identities that differ in few bytes close together give different seeds.
-/

namespace Placeholders

theorem Text.utf8_injective : Function.Injective utf8 := by
  intro t u h
  have hbytes : (String.ofList t).toByteArray = (String.ofList u).toByteArray := by
    rw [String.toByteArray_ofList, String.toByteArray_ofList]
    exact congrArg List.toByteArray h
  exact String.ofList_injective (String.toByteArray_inj.mp hbytes)

namespace Seed

theorem toNat_ofIdentity (identity : Text) :
    (ofIdentity identity).toNat = (Checksum.crc32 identity.utf8).toNat := by
  rw [ofIdentity, UInt64.toNat_ofNat', Nat.mod_eq_of_lt]
  exact Nat.lt_trans (BitVec.isLt _) (by decide)

theorem toNat_ofEntropy (identity : Text) (e : Entropy) : (ofEntropy identity e).toNat =
    if e.mixesIdentity then ((Checksum.crc32 identity.utf8).toNat + e.extra.toNat) % 2 ^ 64
    else e.extra.toNat := by
  unfold ofEntropy
  split
  · rw [UInt64.toNat_add, toNat_ofIdentity]
  · rfl

/-- An identity enters a seed through its checksum alone. -/
theorem ofEntropy_eq_of_crc32_eq {a b : Text}
    (h : Checksum.crc32 a.utf8 = Checksum.crc32 b.utf8) (e : Entropy) :
    ofEntropy a e = ofEntropy b e := by
  rw [ofEntropy, ofIdentity, h, ofEntropy, ofIdentity]

theorem ofEntropy_of_not_mixesIdentity {e : Entropy} (h : e.mixesIdentity = false)
    (identity : Text) : ofEntropy identity e = e.extra := by
  rw [ofEntropy, h, if_neg Bool.false_ne_true]

/-- Two identities of one length in bytes that differ only within four bytes in a row have
different checksums, and so their runs have different seeds wherever the identity is mixed in. -/
theorem ofIdentity_ne_of_window {a b : Text} (hlength : a.utf8.length = b.utf8.length) {n : Nat}
    (hwindow : ∀ k, a.utf8[k]? ≠ b.utf8[k]? → n ≤ k ∧ k < n + 4) (hne : a ≠ b) :
    ofIdentity a ≠ ofIdentity b ∧
      ∀ extra, ofEntropy a ⟨true, extra⟩ ≠ ofEntropy b ⟨true, extra⟩ := by
  have hseed : ofIdentity a ≠ ofIdentity b := by
    intro hsame
    have hcrc := congrArg UInt64.toNat hsame
    rw [toNat_ofIdentity, toNat_ofIdentity] at hcrc
    exact Checksum.crc32_ne_of_window hlength hwindow (Text.utf8_injective.ne hne)
      (BitVec.eq_of_toNat_eq hcrc)
  refine ⟨hseed, fun extra hsame => hseed ?_⟩
  simp only [ofEntropy, if_true] at hsame
  exact (UInt64.add_left_inj extra).mp hsame

/-- The last byte of a letter and the digit behind it differ. -/
theorem ofIdentity_ne_of_window_of_two_bytes :
    (Text.utf8 "run-Ω1-x".toList).length = (Text.utf8 "run-Ψ2-x".toList).length ∧
    (∀ k, (Text.utf8 "run-Ω1-x".toList)[k]? ≠ (Text.utf8 "run-Ψ2-x".toList)[k]? →
      5 ≤ k ∧ k < 5 + 4) ∧
    ofIdentity "run-Ω1-x".toList ≠ ofIdentity "run-Ψ2-x".toList ∧
    ofEntropy "run-Ω1-x".toList ⟨true, 7⟩ ≠ ofEntropy "run-Ψ2-x".toList ⟨true, 7⟩ := by
  have hlength : (Text.utf8 "run-Ω1-x".toList).length = (Text.utf8 "run-Ψ2-x".toList).length := by
    decide
  have hwindow (k : Nat)
      (hk : (Text.utf8 "run-Ω1-x".toList)[k]? ≠ (Text.utf8 "run-Ψ2-x".toList)[k]?) :
      5 ≤ k ∧ k < 5 + 4 := by
    have hinside : ∀ k < 9, (Text.utf8 "run-Ω1-x".toList)[k]? ≠
        (Text.utf8 "run-Ψ2-x".toList)[k]? → 5 ≤ k ∧ k < 5 + 4 := by decide
    refine hinside k (Nat.lt_of_not_le fun hout => hk ?_) hk
    rw [List.getElem?_eq_none hout, List.getElem?_eq_none hout]
  obtain ⟨hseed, hentropy⟩ := ofIdentity_ne_of_window hlength hwindow (by decide)
  exact ⟨hlength, hwindow, hseed, hentropy 7⟩

end Seed
end Placeholders
