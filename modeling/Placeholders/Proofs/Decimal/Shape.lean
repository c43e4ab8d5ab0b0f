import Placeholders.Proofs.Decimal.Fixed

/-!
The characters of the text of an unsigned number: digits, and a point among them if there are
places. Padding adds digits on both sides and takes none away.
-/

namespace Placeholders
namespace Numeral

/-- An unsigned numeral of at least one digit. If there are places, a point and at least as many
digits follow. The widths are further lower bounds. -/
def Plain (places wholeWidth fractionWidth : Nat) (t : Text) : Prop :=
  ∃ whole : Text, (∀ c ∈ whole, isDigit c) ∧ max 1 wholeWidth ≤ whole.length ∧
    if places = 0 then t = whole
    else ∃ fraction : Text, (∀ c ∈ fraction, isDigit c) ∧
      max places fractionWidth ≤ fraction.length ∧ t = whole ++ '.' :: fraction

section
variable {t : Text} (h : ∀ c ∈ t, isDigit c)
include h

theorem exists_digits? (hpos : 0 < t.length) : ∃ n, digits? t = some n :=
  ⟨_, digits?_eq_some_iff.mpr ⟨⟨List.ne_nil_of_length_pos hpos, h⟩, rfl⟩⟩

theorem digits_padLeft (width : Nat) : ∀ c ∈ t.padLeft width '0', isDigit c := by
  intro c hc
  cases List.mem_append.mp hc with
  | inl hzero => exact isDigit_of_mem_zeros hzero
  | inr hdigit => exact h c hdigit

theorem digits_padRight (width : Nat) : ∀ c ∈ t.padRight width '0', isDigit c := by
  intro c hc
  cases List.mem_append.mp hc with
  | inl hdigit => exact h c hdigit
  | inr hzero => exact isDigit_of_mem_zeros hzero

theorem length_padLeft (width : Nat) : (t.padLeft width '0').length = max width t.length := by
  rw [Text.padLeft, byteSize_of_digits h, List.length_append, List.length_replicate]
  omega

theorem length_padRight (width : Nat) : (t.padRight width '0').length = max width t.length := by
  rw [Text.padRight, byteSize_of_digits h, List.length_append, List.length_replicate]
  omega

end

end Numeral

namespace Decimal

open Binary64 (shortest Fits)
open Numeral

theorem splitPoint_positional (d : Decimal) :
    (∃ w, digits? (splitPoint d.positional).1 = some w) ∧
      ∀ c ∈ (splitPoint d.positional).2.getD [], isDigit c := by
  by_cases hexponent : 0 ≤ d.exponent
  · have hdigits := digits?_positional hexponent
    rw [splitPoint_digits hdigits]
    exact ⟨⟨_, hdigits⟩, fun c hc => absurd hc List.not_mem_nil⟩
  · obtain ⟨fraction, htext, hfraction, -⟩ := positional_eq_point (Int.not_le.mp hexponent)
    have hdigits := digits?_ofNat (d.coefficient / 10 ^ (-d.exponent).toNat)
    rw [htext, splitPoint_point hdigits]
    exact ⟨⟨_, hdigits⟩, fun c hc => isDigit_of_digits? hfraction hc⟩

theorem plain_fixed {n : Nat} (fits : Fits n) (places : Nat) :
    Plain places 0 0 (fixed (.finite false n fits) places) := by
  obtain ⟨⟨w, hwhole⟩, hfraction⟩ := splitPoint_positional (shortest n)
  obtain ⟨⟨hne, hdigits⟩, -⟩ := digits?_eq_some_iff.mp hwhole
  refine ⟨_, hdigits, List.length_pos_iff.mpr hne, ?_⟩
  rw [fixed_positive]
  split
  · rfl
  · refine ⟨_, digits_padRight hfraction places, ?_, rfl⟩
    rw [length_padRight hfraction]
    omega

theorem plain_pad {places wholeWidth fractionWidth : Nat} {t : Text} (h : Plain places 0 0 t) :
    Plain places wholeWidth fractionWidth (pad t wholeWidth fractionWidth) := by
  obtain ⟨whole, hwhole, hlength, htext⟩ := h
  obtain ⟨w, hw⟩ := exists_digits? hwhole (by omega)
  have hpadded := digits_padLeft hwhole wholeWidth
  have hwidth := length_padLeft hwhole wholeWidth
  refine ⟨_, hpadded, by omega, ?_⟩
  by_cases hplaces : places = 0
  · rw [if_pos hplaces] at htext ⊢
    rw [htext, pad_of_unsigned? (unsigned?_digits hw), splitPoint_digits hw, List.append_nil]
  · rw [if_neg hplaces] at htext ⊢
    obtain ⟨fraction, hfraction, hfractionLength, rfl⟩ := htext
    obtain ⟨f, hf⟩ := exists_digits? hfraction (by omega)
    refine ⟨_, digits_padRight hfraction fractionWidth, ?_, ?_⟩
    · rw [length_padRight hfraction]
      omega
    · rw [pad_of_unsigned? (unsigned?_point hw hf), splitPoint_point hw]

end Decimal
end Placeholders
