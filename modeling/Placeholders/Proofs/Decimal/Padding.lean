import Placeholders.Proofs.Decimal.Numeral

/-!
Padding of decimal text. A text has a sign, a whole part and a fraction, and padding puts zeros in
front of the one and behind the other. The padded text has the parts that were meant, so it can be
padded again, and a numeral keeps its value.
-/

namespace Placeholders

namespace Text

theorem byteSize_zeros (k : Nat) : byteSize (List.replicate k '0') = k := by
  rw [Numeral.byteSize_of_digits fun _ => Numeral.isDigit_of_mem_zeros, List.length_replicate]

theorem byteSize_padLeft (width : Nat) (t : Text) :
    (t.padLeft width '0').byteSize = max t.byteSize width := by
  rw [padLeft, byteSize_append, byteSize_zeros]
  omega

theorem byteSize_padRight (width : Nat) (t : Text) :
    (t.padRight width '0').byteSize = max t.byteSize width := by
  rw [padRight, byteSize_append, byteSize_zeros]
  omega

theorem padLeft_padLeft (width width' : Nat) (t : Text) :
    (t.padLeft width '0').padLeft width' '0' = t.padLeft (max width width') '0' := by
  have hsize := byteSize_padLeft width t
  rw [padLeft, hsize, padLeft, padLeft, ← List.append_assoc, List.replicate_append_replicate]
  congr 2
  omega

theorem padRight_padRight (width width' : Nat) (t : Text) :
    (t.padRight width '0').padRight width' '0' = t.padRight (max width width') '0' := by
  have hsize := byteSize_padRight width t
  rw [padRight, hsize, padRight, padRight, List.append_assoc, List.replicate_append_replicate]
  congr 2
  omega

end Text

namespace Decimal

open Numeral (digits? splitPoint_text)

/-- What stands behind the whole part: nothing, or a point and the fraction. -/
def pointed : Option Text → Text
  | none => []
  | some fraction => '.' :: fraction

/-- A sign or none, the text before the first point, and the text behind it if there is one. -/
structure Layout where
  negative : Bool
  whole : Text
  fraction : Option Text
deriving Repr, DecidableEq

namespace Layout

def text (l : Layout) : Text :=
  (if l.negative then ['-'] else []) ++ l.whole ++ pointed l.fraction

/-- With zeros in front of the whole part and behind the fraction. -/
def extended (l : Layout) (front back : Nat) : Layout where
  negative := l.negative
  whole := List.replicate front '0' ++ l.whole
  fraction := l.fraction.map (· ++ List.replicate back '0')

/-- With parts of at least some sizes. -/
def padded (l : Layout) (wholeWidth fractionWidth : Nat) : Layout where
  negative := l.negative
  whole := l.whole.padLeft wholeWidth '0'
  fraction := l.fraction.map (Text.padRight fractionWidth '0')

theorem padded_eq_extended (l : Layout) (wholeWidth fractionWidth : Nat) :
    ∃ front back, l.padded wholeWidth fractionWidth = l.extended front back := by
  refine ⟨wholeWidth - l.whole.byteSize, fractionWidth - (l.fraction.getD []).byteSize, ?_⟩
  rw [padded, extended]
  cases l.fraction <;> rfl

theorem byteSize_padded (l : Layout) (wholeWidth fractionWidth : Nat) :
    (l.padded wholeWidth fractionWidth).whole.byteSize = max l.whole.byteSize wholeWidth ∧
      (l.padded wholeWidth fractionWidth).fraction.map Text.byteSize =
        l.fraction.map fun fraction => max fraction.byteSize fractionWidth := by
  refine ⟨Text.byteSize_padLeft wholeWidth l.whole, ?_⟩
  simp only [padded, Option.map_map, Function.comp_def, Text.byteSize_padRight]

theorem padded_padded (l : Layout) (a b c d : Nat) :
    (l.padded a b).padded c d = l.padded (max a c) (max b d) := by
  simp only [padded, Text.padLeft_padLeft, Option.map_map, Function.comp_def,
    Text.padRight_padRight]

end Layout

/-- The text has these parts: the point is the first one, and a minus sign in front is the sign. -/
structure LaidOut (t : Text) (l : Layout) : Prop where
  text_eq : t = l.text
  point_notMem : '.' ∉ l.whole
  sign_taken : l.negative = false → l.whole.head? ≠ some '-'

def layout : Text → Layout
  | '-' :: t => ⟨true, (splitPoint t).1, (splitPoint t).2⟩
  | t => ⟨false, (splitPoint t).1, (splitPoint t).2⟩

theorem point_notMem_splitPoint (t : Text) : '.' ∉ (splitPoint t).1 := by
  rw [splitPoint]
  cases hcut : Text.cutAt ['.'] t with
  | none =>
      intro hmem
      obtain ⟨before, after, rfl⟩ := List.append_of_mem hmem
      exact Text.cutAt_eq_none_iff.mp hcut ⟨before, after, by simp⟩
  | some cut =>
      obtain ⟨before, after⟩ := cut
      obtain ⟨ht, hfirst⟩ := Text.cutAt_eq_some_iff.mp hcut
      intro hmem
      obtain ⟨earlier, between, rfl⟩ := List.append_of_mem hmem
      have hle := hfirst earlier (between ++ ['.'] ++ after) (by simp [ht])
      simp at hle

theorem splitPoint_eq {whole : Text} (h : '.' ∉ whole) (fraction : Option Text) :
    splitPoint (whole ++ pointed fraction) = (whole, fraction) := by
  rw [splitPoint]
  cases fraction with
  | none =>
      have hnone : Text.cutAt ['.'] (whole ++ []) = none := by
        rw [Text.cutAt_eq_none_iff, List.append_nil]
        exact fun hmark => h (hmark.subset (List.mem_singleton_self '.'))
      rw [pointed, hnone, List.append_nil]
  | some fraction => rw [pointed, Text.cutAt_singleton h]

theorem layout_of_head? {t : Text} (h : t.head? ≠ some '-') :
    layout t = ⟨false, (splitPoint t).1, (splitPoint t).2⟩ := by
  unfold layout
  split
  · exact absurd rfl h
  · rfl

theorem laidOut_layout (t : Text) : LaidOut t (layout t) := by
  by_cases hsign : t.head? = some '-'
  · obtain ⟨u, rfl⟩ := List.head?_eq_some_iff.mp hsign
    refine ⟨congrArg (List.cons '-') (splitPoint_text u).symm, point_notMem_splitPoint u, ?_⟩
    intro h
    contradiction
  · rw [layout_of_head? hsign]
    refine ⟨(splitPoint_text t).symm, point_notMem_splitPoint t, fun _ hhead => hsign ?_⟩
    rw [← splitPoint_text t, List.head?_append, hhead]
    rfl

theorem LaidOut.layout_eq {t : Text} {l : Layout} (h : LaidOut t l) : layout t = l := by
  obtain ⟨rfl, hpoint, hsign⟩ := h
  obtain ⟨negative, whole, fraction⟩ := l
  have hsplit := splitPoint_eq hpoint fraction
  cases negative with
  | true =>
      have htext : Layout.text ⟨true, whole, fraction⟩ = '-' :: (whole ++ pointed fraction) := rfl
      rw [htext, layout, hsplit]
  | false =>
      have htext : Layout.text ⟨false, whole, fraction⟩ = whole ++ pointed fraction := rfl
      have hhead : (whole ++ pointed fraction).head? ≠ some '-' := by
        cases whole with
        | nil => cases fraction <;> simp [pointed]
        | cons c whole => exact hsign rfl
      rw [htext, layout_of_head? hhead, hsplit]

theorem laidOut_iff {t : Text} {l : Layout} : LaidOut t l ↔ l = layout t :=
  ⟨fun h => h.layout_eq.symm, fun h => h ▸ laidOut_layout t⟩

theorem LaidOut.padded {t : Text} {l : Layout} (h : LaidOut t l) (wholeWidth fractionWidth : Nat) :
    LaidOut (l.padded wholeWidth fractionWidth).text (l.padded wholeWidth fractionWidth) := by
  refine ⟨rfl, fun hmem => ?_, fun hpositive => ?_⟩
  · cases List.mem_append.mp hmem with
    | inl hzero => exact absurd (List.eq_of_mem_replicate hzero) (by decide)
    | inr hwhole => exact h.point_notMem hwhole
  · have hwhole := h.sign_taken hpositive
    rw [Layout.padded, Text.padLeft]
    cases wholeWidth - l.whole.byteSize with
    | zero => exact hwhole
    | succ k => simp [List.replicate_succ]

section
variable (t : Text) (a b c d : Nat)

theorem pad_eq : pad t a b = ((layout t).padded a b).text := by
  have hpointed (fraction : Option Text) :
      (match fraction with
        | none => []
        | some fraction => '.' :: fraction.padRight b '0') =
        pointed (fraction.map (Text.padRight b '0')) := by
    cases fraction <;> rfl
  by_cases hsign : t.head? = some '-'
  · obtain ⟨u, rfl⟩ := List.head?_eq_some_iff.mp hsign
    exact congrArg (_ ++ ·) (hpointed (splitPoint u).2)
  · rw [layout_of_head? hsign, pad]
    · exact congrArg (_ ++ ·) (hpointed (splitPoint t).2)
    · rintro u rfl
      exact hsign rfl

theorem layout_pad : layout (pad t a b) = (layout t).padded a b := by
  rw [pad_eq]
  exact ((laidOut_layout t).padded a b).layout_eq

theorem pad_pad : pad (pad t a b) c d = pad t (max a c) (max b d) := by
  rw [pad_eq (pad t a b), layout_pad, Layout.padded_padded, pad_eq]

end

namespace Layout

def digits (l : Layout) : Text := l.whole ++ l.fraction.getD []

def places (l : Layout) : Nat := (l.fraction.getD []).length

/-- The number of a numeral. One side of its point may be empty. -/
def number? (l : Layout) : Option ℚ :=
  (digits? l.digits).map fun n : Nat =>
    (if l.negative then -1 else 1) * ((n : ℚ) / (10 ^ l.places : Nat))

theorem digits_extended (l : Layout) (front back : Nat) : ∃ k,
    (l.extended front back).digits =
      List.replicate front '0' ++ (l.digits ++ List.replicate k '0') ∧
    (l.extended front back).places = l.places + k := by
  obtain ⟨negative, whole, fraction⟩ := l
  cases fraction with
  | none => exact ⟨0, by simp [extended, digits], rfl⟩
  | some fraction => exact ⟨back, by simp [extended, digits], by simp [extended, places]⟩

end Layout

theorem digits?_zeros_around {t : Text} (h : t ≠ []) (front back : Nat) :
    digits? (List.replicate front '0' ++ (t ++ List.replicate back '0')) =
      (digits? t).map (10 ^ back * ·) := by
  cases hdigits : digits? t with
  | some n =>
      exact Numeral.digits?_zeros_append (Numeral.digits?_append_zeros hdigits back) front
  | none =>
      rw [Option.map_none, Option.eq_none_iff_forall_ne_some]
      intro n hn
      have hall : ∀ c ∈ t, isDigit c := fun c hc => Numeral.isDigit_of_digits? hn
        (List.mem_append_right _ (List.mem_append_left _ hc))
      rw [Numeral.digits?_eq_some_iff.mpr ⟨⟨h, hall⟩, rfl⟩] at hdigits
      contradiction

theorem Layout.number?_extended {l : Layout} (h : l.digits ≠ []) (front back : Nat) :
    (l.extended front back).number? = l.number? := by
  obtain ⟨k, hdigits, hplaces⟩ := l.digits_extended front back
  have hvalue (n : Nat) : ((10 ^ k * n : Nat) : ℚ) / (10 ^ (l.places + k) : Nat) =
      n / (10 ^ l.places : Nat) := by
    rw [Nat.pow_add, Nat.mul_comm (10 ^ l.places), Nat.cast_mul, Nat.cast_mul,
      mul_div_mul_left _ _ (Numeral.ten_pow_ne_zero k)]
  have hnegative : (l.extended front back).negative = l.negative := rfl
  rw [number?, hdigits, digits?_zeros_around h, hplaces, hnegative, Option.map_map, number?]
  simp only [Function.comp_def, hvalue]

/-- The number that a text spells. -/
def number? (t : Text) : Option ℚ := (layout t).number?

theorem number?_pad {t : Text} (h : (layout t).digits ≠ []) (wholeWidth fractionWidth : Nat) :
    number? (pad t wholeWidth fractionWidth) = number? t := by
  obtain ⟨front, back, hextended⟩ := (layout t).padded_eq_extended wholeWidth fractionWidth
  rw [number?, layout_pad, hextended, Layout.number?_extended h, number?]

theorem digits_ne_nil_of_number? {t : Text} {q : ℚ} (h : number? t = some q) :
    (layout t).digits ≠ [] := by
  obtain ⟨n, hn, -⟩ := Option.map_eq_some_iff.mp h
  exact (Numeral.digits?_eq_some_iff.mp hn).1.1

theorem digits?_append {t u : Text} {m n : Nat} (ht : digits? t = some m)
    (hu : digits? u = some n) : digits? (t ++ u) = some (10 ^ u.length * m + n) := by
  obtain ⟨⟨hne, hdigits⟩, rfl⟩ := Numeral.digits?_eq_some_iff.mp ht
  obtain ⟨⟨-, hdigits'⟩, rfl⟩ := Numeral.digits?_eq_some_iff.mp hu
  refine Numeral.digits?_eq_some_iff.mpr ⟨⟨List.append_ne_nil_of_left_ne_nil hne u, ?_⟩,
    Numeral.value_append t u⟩
  exact List.forall_mem_append.mpr ⟨hdigits, hdigits'⟩

theorem number?_of_unsigned? {t : Text} {q : ℚ} (h : Numeral.unsigned? t = some q)
    (negative : Bool) : Layout.number? ⟨negative, (splitPoint t).1, (splitPoint t).2⟩ =
      some ((if negative then -1 else 1) * q) := by
  rw [Numeral.unsigned?] at h
  generalize splitPoint t = parts at *
  obtain ⟨whole, fraction⟩ := parts
  cases fraction with
  | none =>
      obtain ⟨n, hn, rfl⟩ := Option.map_eq_some_iff.mp h
      have hdigits : digits? (whole ++ []) = some n := by rw [List.append_nil, hn]
      have hplaces : ((10 ^ 0 : Nat) : ℚ) = 1 := rfl
      simp only [Layout.number?, Layout.digits, Layout.places, Option.getD_none, hdigits,
        Option.map_some, List.length_nil, hplaces, div_one]
  | some fraction =>
      simp only [Option.bind_eq_bind, Option.bind_eq_some_iff, Option.pure_def] at h
      obtain ⟨w, hw, f, hf, hsum⟩ := h
      have hvalue : ((10 ^ fraction.length * w + f : Nat) : ℚ) / (10 ^ fraction.length : Nat) =
          q := by
        rw [Nat.cast_add, Nat.cast_mul, add_div,
          mul_div_cancel_left₀ _ (Numeral.ten_pow_ne_zero fraction.length)]
        exact Option.some_inj.mp hsum
      simp only [Layout.number?, Layout.digits, Layout.places, Option.getD_some,
        digits?_append hw hf, Option.map_some, hvalue]

/-- A numeral with digits on both sides of its point spells its value. -/
theorem number?_of_rational? {t : Text} {q : ℚ} (h : Numeral.rational? t = some q) :
    number? t = some q := by
  unfold Numeral.rational? at h
  split at h
  · next u =>
    obtain ⟨p, hp, rfl⟩ := Option.map_eq_some_iff.mp h
    have hnumber := number?_of_unsigned? hp true
    rw [if_pos rfl, neg_one_mul] at hnumber
    exact hnumber
  · next hsign =>
    have hnumber := number?_of_unsigned? h false
    rw [if_neg Bool.false_ne_true, one_mul] at hnumber
    rw [number?, layout_of_head?]
    · exact hnumber
    · intro hhead
      obtain ⟨u, rfl⟩ := List.head?_eq_some_iff.mp hhead
      exact hsign u rfl

end Decimal
end Placeholders
