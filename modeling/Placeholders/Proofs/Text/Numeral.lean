import Mathlib.Algebra.Group.Nat.Defs
import Placeholders.Proofs.Text.Position
import Placeholders.Text.Numeral

/-!
Numerals in digits, with zeros and signs before them. What is written for a number is read back as
that number, and all numbers of 64 bits are within the bounds of reading.
-/

namespace Placeholders
namespace Numeral

theorem ne_of_isDigit {c : Char} (h : isDigit c) : c ≠ '.' ∧ c ≠ '-' := by
  constructor <;> (rintro rfl; exact absurd h (by decide))

theorem utf8Size_of_isDigit {c : Char} (h : isDigit c) : c.utf8Size = 1 := by
  simp only [isDigit, Bool.and_eq_true, decide_eq_true_eq, Char.le_def, UInt32.le_iff_toNat_le] at h
  have hval : c.val.toNat ≤ 57 := h.2
  rw [Char.utf8Size, if_pos]
  rw [UInt32.le_iff_toNat_le]
  exact Nat.le_trans hval (by decide)

theorem byteSize_of_digits {t : Text} (h : ∀ c ∈ t, isDigit c) : t.byteSize = t.length := by
  induction t with
  | nil => rfl
  | cons c t ih =>
      have hrest := ih fun d hd => h d (List.mem_cons_of_mem c hd)
      rw [Text.byteSize, utf8Size_of_isDigit (h c List.mem_cons_self), hrest, List.length_cons,
        Nat.add_comm]

theorem isDigit_of_mem_ofNat {n : Nat} {c : Char} (h : c ∈ ofNat n) : isDigit c := by
  have hdigit : c.isDigit := Nat.isDigit_of_mem_toDigits (by decide) (by decide) h
  simp only [Char.isDigit, Bool.and_eq_true, decide_eq_true_eq] at hdigit
  simp only [isDigit, Bool.and_eq_true, decide_eq_true_eq]
  exact hdigit

theorem ofNat_ne_nil (n : Nat) : ofNat n ≠ [] := List.ne_nil_of_length_pos Nat.length_toDigits_pos

theorem value_ofNat (n : Nat) : value (ofNat n) = n :=
  Nat.ofDigitChars_toDigits (by decide) (by decide)

theorem value_append (t u : Text) : value (t ++ u) = 10 ^ u.length * value t + value u := by
  have hfrom (init : Nat) : Nat.ofDigitChars 10 u init = 10 ^ u.length * init + value u :=
    Nat.ofDigitChars_eq_ofDigitChars_zero
  exact (Nat.ofDigitChars_append 0).trans (hfrom (value t))

theorem value_zeros (k : Nat) : value (List.replicate k '0') = 0 := by
  have hzeros : Nat.ofDigitChars 10 (List.replicate k '0') 0 = 10 ^ k * 0 :=
    Nat.ofDigitChars_replicate_zero
  exact hzeros

theorem digits?_eq_some_iff {t : Text} {n : Nat} :
    digits? t = some n ↔ (t ≠ [] ∧ ∀ c ∈ t, isDigit c) ∧ value t = n := by
  rw [digits?, Option.ite_none_right_eq_some, List.all_eq_true, Option.some_inj]

theorem digits?_ofNat (n : Nat) : digits? (ofNat n) = some n :=
  digits?_eq_some_iff.mpr ⟨⟨ofNat_ne_nil n, fun _ => isDigit_of_mem_ofNat⟩, value_ofNat n⟩

theorem isDigit_of_mem_zeros {k : Nat} {c : Char} (h : c ∈ List.replicate k '0') : isDigit c := by
  rw [List.eq_of_mem_replicate h]
  decide

theorem digits?_zeros {k : Nat} (hk : 0 < k) : digits? (List.replicate k '0') = some 0 :=
  digits?_eq_some_iff.mpr
    ⟨⟨List.ne_nil_of_length_pos (by rw [List.length_replicate]; exact hk),
      fun _ => isDigit_of_mem_zeros⟩, value_zeros k⟩

section
variable {t : Text} {n : Nat}

theorem isDigit_of_digits? (h : digits? t = some n) {c : Char} (hc : c ∈ t) : isDigit c :=
  (digits?_eq_some_iff.mp h).1.2 c hc

theorem digits?_zeros_append (h : digits? t = some n) (k : Nat) :
    digits? (List.replicate k '0' ++ t) = some n := by
  obtain ⟨⟨hne, hdigits⟩, hvalue⟩ := digits?_eq_some_iff.mp h
  refine digits?_eq_some_iff.mpr ⟨⟨List.append_ne_nil_of_right_ne_nil _ hne, ?_⟩, ?_⟩
  · intro c hc
    cases List.mem_append.mp hc with
    | inl hzero => exact isDigit_of_mem_zeros hzero
    | inr hdigit => exact hdigits c hdigit
  · rw [value_append, value_zeros, hvalue, Nat.mul_zero, Nat.zero_add]

theorem digits?_append_zeros (h : digits? t = some n) (k : Nat) :
    digits? (t ++ List.replicate k '0') = some (10 ^ k * n) := by
  obtain ⟨⟨hne, hdigits⟩, hvalue⟩ := digits?_eq_some_iff.mp h
  refine digits?_eq_some_iff.mpr ⟨⟨List.append_ne_nil_of_left_ne_nil hne _, ?_⟩, ?_⟩
  · intro c hc
    cases List.mem_append.mp hc with
    | inl hdigit => exact hdigits c hdigit
    | inr hzero => exact isDigit_of_mem_zeros hzero
  · rw [value_append, value_zeros, hvalue, List.length_replicate, Nat.add_zero]

theorem padLeft_of_digits (h : digits? t = some n) (width : Nat) :
    t.padLeft width '0' = List.replicate (width - t.length) '0' ++ t := by
  rw [Text.padLeft, byteSize_of_digits fun _ => isDigit_of_digits? h]

theorem padRight_of_digits (h : digits? t = some n) (width : Nat) :
    t.padRight width '0' = t ++ List.replicate (width - t.length) '0' := by
  rw [Text.padRight, byteSize_of_digits fun _ => isDigit_of_digits? h]

theorem digits?_padded (width n : Nat) : digits? (padded width n) = some n := by
  rw [padded, padLeft_of_digits (digits?_ofNat n)]
  exact digits?_zeros_append (digits?_ofNat n) _

theorem length_padded {width n : Nat} (hwidth : 0 < width) (hn : n < 10 ^ width) :
    (padded width n).length = width := by
  have hlength : (ofNat n).length ≤ width :=
    (Nat.length_toDigits_le_iff (by decide) hwidth).mpr hn
  rw [padded, padLeft_of_digits (digits?_ofNat n), List.length_append, List.length_replicate]
  omega

theorem natural?_of_digits? (h : digits? t = some n) : natural? t = some n := by
  unfold natural?
  split
  · exact absurd (isDigit_of_digits? h (List.mem_cons_self ..)) (by decide)
  · exact h

theorem integer?_of_digits? (h : digits? t = some n) :
    integer? t = some (Int.ofNat n) := by
  unfold integer?
  split
  · exact absurd (isDigit_of_digits? h (List.mem_cons_self ..)) (by decide)
  · exact absurd (isDigit_of_digits? h (List.mem_cons_self ..)) (by decide)
  · rw [h, Option.map_some]

end

/-- At most one sign and at least one digit, with the number that they stand for. -/
def Signed (t : Text) (n : Int) : Prop :=
  ∃ sign digits : Text, t = sign ++ digits ∧ (sign = [] ∨ sign = ['+'] ∨ sign = ['-']) ∧
    digits ≠ [] ∧ (∀ c ∈ digits, isDigit c) ∧
    n = if sign = ['-'] then -(value digits : Int) else value digits

theorem integer?_eq_some_iff {t : Text} {n : Int} : integer? t = some n ↔ Signed t n := by
  constructor
  · intro h
    unfold integer? at h
    split at h
    · obtain ⟨m, hm, rfl⟩ := Option.map_eq_some_iff.mp h
      obtain ⟨⟨hne, hdigits⟩, rfl⟩ := digits?_eq_some_iff.mp hm
      exact ⟨['+'], _, rfl, by simp, hne, hdigits, by simp⟩
    · obtain ⟨m, hm, rfl⟩ := Option.map_eq_some_iff.mp h
      obtain ⟨⟨hne, hdigits⟩, rfl⟩ := digits?_eq_some_iff.mp hm
      exact ⟨['-'], _, rfl, by simp, hne, hdigits, by simp⟩
    · obtain ⟨m, hm, rfl⟩ := Option.map_eq_some_iff.mp h
      obtain ⟨⟨hne, hdigits⟩, rfl⟩ := digits?_eq_some_iff.mp hm
      exact ⟨[], _, rfl, by simp, hne, hdigits, by simp⟩
  · intro h
    obtain ⟨sign, digits, rfl, hsign, hne, hdigits, rfl⟩ := h
    have hread : digits? digits = some (value digits) :=
      digits?_eq_some_iff.mpr ⟨⟨hne, hdigits⟩, rfl⟩
    rcases hsign with rfl | rfl | rfl
    · exact integer?_of_digits? hread
    · have hplus : integer? ('+' :: digits) = (digits? digits).map Int.ofNat := rfl
      rw [List.singleton_append, hplus, hread]
      rfl
    · have hminus : integer? ('-' :: digits) = (digits? digits).map fun m => -Int.ofNat m := rfl
      rw [List.singleton_append, hminus, hread]
      rfl

theorem signed64?_eq_some_iff {t : Text} {i : Int64} :
    signed64? t = some i ↔ Signed t i.toInt := by
  rw [signed64?, Option.bind_eq_some_iff, ← integer?_eq_some_iff]
  constructor
  · intro h
    obtain ⟨n, hn, h⟩ := h
    obtain ⟨⟨hlow, hhigh⟩, h⟩ := Option.ite_none_right_eq_some.mp h
    rw [hn, ← Option.some.inj h, Int64.toInt_ofInt_of_le hlow (Int.lt_add_one_of_le hhigh)]
  · intro h
    refine ⟨i.toInt, h, ?_⟩
    rw [if_pos ⟨Int64.minValue_le_toInt i, Int64.toInt_le i⟩, Int64.ofInt_toInt]

theorem word64?_of_digits {digits : Text} (hne : digits ≠ []) (hdigits : ∀ c ∈ digits, isDigit c) :
    word64? digits = if value digits < 2 ^ 64 then some (.ofNat (value digits)) else none := by
  rw [word64?, natural?_of_digits? (digits?_eq_some_iff.mpr ⟨⟨hne, hdigits⟩, rfl⟩)]
  rfl

theorem integer?_ofInt (n : Int) : integer? (ofInt n) = some n := by
  unfold ofInt
  split
  · next hneg =>
    have hread : integer? ('-' :: ofNat n.natAbs) = some (-Int.ofNat n.natAbs) := by
      simp only [integer?, digits?_ofNat, Option.map_some]
    rw [hread, Int.ofNat_eq_natCast, Int.ofNat_natAbs_of_nonpos (Int.le_of_lt hneg), Int.neg_neg]
  · next hpos =>
    rw [integer?_of_digits? (digits?_ofNat _), Int.ofNat_eq_natCast,
      Int.natAbs_of_nonneg (Int.not_lt.mp hpos)]

theorem signed64?_ofInt (i : Int64) : signed64? (ofInt i.toInt) = some i := by
  rw [signed64?, integer?_ofInt, Option.bind_some,
    if_pos ⟨Int64.minValue_le_toInt i, Int64.toInt_le i⟩, Int64.ofInt_toInt]

theorem word64?_ofNat (n : UInt64) : word64? (ofNat n.toNat) = some n := by
  rw [word64?, natural?_of_digits? (digits?_ofNat _), Option.bind_some, if_pos n.toNat_lt,
    UInt64.ofNat_toNat]

end Numeral
end Placeholders
