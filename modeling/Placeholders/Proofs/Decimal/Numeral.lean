import Mathlib.Data.Rat.Defs
import Mathlib.Tactic.FieldSimp
import Mathlib.Tactic.Ring
import Placeholders.Decimal.Fixed
import Placeholders.Proofs.Text.Numeral

/-!
Decimal numerals as texts with a value: digits with at most one point among them, after at most a
minus sign.
-/

namespace Placeholders
namespace Numeral

def unsigned? (t : Text) : Option ℚ :=
  match Decimal.splitPoint t with
  | (whole, none) => (digits? whole).map (Nat.cast : Nat → ℚ)
  | (whole, some fraction) => do
    let w ← digits? whole
    let f ← digits? fraction
    pure ((w : ℚ) + f / (10 ^ fraction.length : Nat))

def rational? : Text → Option ℚ
  | '-' :: t => (unsigned? t).map fun q => -q
  | t => unsigned? t

/-- How many characters stand behind the point, if there is a point. -/
def places? (t : Text) : Option Nat := (Decimal.splitPoint t).2.map List.length

theorem ten_pow_ne_zero (k : Nat) : ((10 ^ k : Nat) : ℚ) ≠ 0 := by
  exact_mod_cast (Nat.pow_pos (by decide)).ne'

section
variable {t : Text} {n : Nat}

theorem point_notMem (h : digits? t = some n) : '.' ∉ t :=
  fun hmem => (ne_of_isDigit (isDigit_of_digits? h hmem)).1 rfl

theorem splitPoint_digits (h : digits? t = some n) : Decimal.splitPoint t = (t, none) := by
  have hnone : Text.cutAt ['.'] t = none := by
    rw [Text.cutAt_eq_none_iff]
    intro hmark
    exact point_notMem h (hmark.subset (List.mem_singleton_self '.'))
  rw [Decimal.splitPoint, hnone]

theorem splitPoint_point (h : digits? t = some n) (fraction : Text) :
    Decimal.splitPoint (t ++ '.' :: fraction) = (t, some fraction) := by
  rw [Decimal.splitPoint, Text.cutAt_singleton (point_notMem h)]

theorem unsigned?_digits (h : digits? t = some n) : unsigned? t = some (n : ℚ) := by
  simp only [unsigned?, splitPoint_digits h, h, Option.map_some]

theorem unsigned?_point {fraction : Text} {f : Nat} (h : digits? t = some n)
    (hf : digits? fraction = some f) :
    unsigned? (t ++ '.' :: fraction) = some ((n : ℚ) + f / (10 ^ fraction.length : Nat)) := by
  simp only [unsigned?, splitPoint_point h, h, hf, Option.bind_eq_bind, Option.bind_some,
    Option.pure_def]

theorem splitPoint_minus (t : Text) : Decimal.splitPoint ('-' :: t) =
    ('-' :: (Decimal.splitPoint t).1, (Decimal.splitPoint t).2) := by
  have hcut : Text.cutAt ['.'] ('-' :: t) =
      (Text.cutAt ['.'] t).map fun parts => ('-' :: parts.1, parts.2) := rfl
  rw [Decimal.splitPoint, Decimal.splitPoint, hcut]
  cases Text.cutAt ['.'] t <;> rfl

theorem digits?_minus (t : Text) : digits? ('-' :: t) = none :=
  if_neg fun h => Bool.false_ne_true h.2

theorem unsigned?_minus (t : Text) : unsigned? ('-' :: t) = none := by
  rw [unsigned?, splitPoint_minus]
  cases (Decimal.splitPoint t).2 with
  | none => simp only [digits?_minus, Option.map_none]
  | some _ => simp only [digits?_minus, Option.bind_eq_bind, Option.bind_none]

theorem places?_minus (t : Text) : places? ('-' :: t) = places? t := by
  rw [places?, splitPoint_minus, places?]

theorem rational?_of_unsigned? {q : ℚ} (h : unsigned? t = some q) : rational? t = some q := by
  unfold rational?
  split
  · rw [unsigned?_minus] at h
    contradiction
  · exact h

/-- No digit but zeros. -/
def Zeros (t : Text) : Prop := ∀ c ∈ t, isDigit c → c = '0'

instance (t : Text) : Decidable (Zeros t) :=
  List.decidableBAll (fun c => isDigit c → c = '0') t

theorem zeros_append {t u : Text} : Zeros (t ++ u) ↔ Zeros t ∧ Zeros u := List.forall_mem_append

theorem zeros_point {t : Text} : Zeros ('.' :: t) ↔ Zeros t := by
  have hpoint : isDigit '.' → '.' = '0' := by decide
  exact List.forall_mem_cons.trans (and_iff_right hpoint)

theorem zeros_replicate (k : Nat) : Zeros (List.replicate k '0') :=
  fun _ hc _ => List.eq_of_mem_replicate hc

theorem zeros_padLeft {t : Text} {width : Nat} : Zeros (t.padLeft width '0') ↔ Zeros t :=
  zeros_append.trans (and_iff_right (zeros_replicate _))

theorem zeros_padRight {t : Text} {width : Nat} : Zeros (t.padRight width '0') ↔ Zeros t :=
  zeros_append.trans (and_iff_left (zeros_replicate _))

theorem splitPoint_text (t : Text) : (Decimal.splitPoint t).1 ++
    (match (Decimal.splitPoint t).2 with
      | none => []
      | some fraction => '.' :: fraction) = t := by
  rw [Decimal.splitPoint]
  cases h : Text.cutAt ['.'] t with
  | none => exact List.append_nil t
  | some cut =>
      have htext := Text.cutAt_eq_some h
      simp only [List.append_assoc, List.singleton_append] at htext
      exact htext.symm

theorem value_of_zeros (hdigits : digits? t = some n) (h : Zeros t) : n = 0 := by
  have hzeros : t = List.replicate t.length '0' :=
    List.eq_replicate_iff.mpr ⟨rfl, fun c hc => h c hc (isDigit_of_digits? hdigits hc)⟩
  have hvalue := (digits?_eq_some_iff.mp hdigits).2
  rw [hzeros, value_zeros] at hvalue
  exact hvalue.symm

theorem unsigned?_of_zeros {q : ℚ} (hq : unsigned? t = some q) (h : Zeros t) : q = 0 := by
  have htext := splitPoint_text t
  rw [unsigned?] at hq
  generalize Decimal.splitPoint t = parts at *
  obtain ⟨whole, fraction⟩ := parts
  rw [← htext, zeros_append] at h
  obtain ⟨hwhole, hrest⟩ := h
  cases fraction with
  | none =>
      obtain ⟨w, hw, rfl⟩ := Option.map_eq_some_iff.mp hq
      rw [value_of_zeros hw hwhole, Nat.cast_zero]
  | some fraction =>
      have hfraction : Zeros fraction := zeros_point.mp hrest
      simp only [Option.bind_eq_bind, Option.bind_eq_some_iff, Option.pure_def] at hq
      obtain ⟨w, hw, f, hf, hsum⟩ := hq
      rw [value_of_zeros hw hwhole, value_of_zeros hf hfraction] at hsum
      rw [← Option.some_inj.mp hsum]
      simp

end

end Numeral
end Placeholders
