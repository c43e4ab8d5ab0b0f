import Mathlib.Data.Int.ModEq
import Placeholders.Function.UniqueId
import Placeholders.Proofs.Function.SignedSum

/-!
Indexes as offsets of the seed. An index counts only through its sum with the seed modulo `2 ^ 64`,
and a sum draws the term of an index at its true absolute value, with the sign of the index.
-/

namespace Placeholders

theorem toInt_modEq_toNat (i : Int64) : i.toInt ≡ i.toUInt64.toNat [ZMOD 2 ^ 64] := by
  have hint := BitVec.toInt_eq_msb_cond i.toBitVec
  rw [Int64.toInt_toBitVec, Int64.toNat_toBitVec] at hint
  rw [hint, Int.ModEq]
  split <;> omega

/-- The word of an absolute value is right even where the absolute value is no index. -/
theorem toNat_abs (i : Int64) : i.abs.toUInt64.toNat = i.toInt.natAbs := by
  have hint := BitVec.toInt_eq_msb_cond i.toBitVec
  have habs : i.abs.toUInt64.toNat = i.toBitVec.abs.toNat := rfl
  have hlt := i.toBitVec.isLt
  rw [Int64.toInt_toBitVec] at hint
  rw [habs, BitVec.toNat_abs, hint]
  split <;> omega

theorem toInt_neg_of_ne {i : Int64} (h : i ≠ Int64.minValue) : (-i).toInt = -i.toInt := by
  have hne : i.toInt ≠ -2 ^ 63 := fun hleast => h (Int64.toInt_inj.mp hleast)
  have hle := i.le_toInt
  have hlt := i.toInt_lt
  rw [Int64.toInt_neg]
  apply Int.bmod_eq_of_le <;> omega

theorem Binary64.neg_neg (x : Binary64) : - -x = x := by
  change neg (neg x) = x
  cases x with
  | finite negative n fits => simp only [neg, Bool.not_not]
  | infinite negative => simp only [neg, Bool.not_not]
  | nan => rfl

namespace Seed

theorem toNat_atIndex_modEq (seed : Seed) (index : Int64) :
    ((seed.atIndex index).toNat : Int) ≡ seed.toNat + index.toInt [ZMOD 2 ^ 64] := by
  have hindex := (toInt_modEq_toNat index).symm.add_left seed.toNat
  refine Int.ModEq.trans ?_ hindex
  rw [atIndex, UInt64.toNat_add]
  push_cast
  exact Int.mod_modEq _ _

theorem atIndex_eq_iff {s t : Seed} {i j : Int64} :
    s.atIndex i = t.atIndex j ↔ s.toNat + i.toInt ≡ t.toNat + j.toInt [ZMOD 2 ^ 64] := by
  have hs := toNat_atIndex_modEq s i
  have ht := toNat_atIndex_modEq t j
  constructor
  · intro h
    rw [h] at hs
    exact hs.symm.trans ht
  · intro h
    have hsame := (hs.trans h).trans ht.symm
    have hslt := (s.atIndex i).toNat_lt
    have htlt := (t.atIndex j).toNat_lt
    rw [Int.ModEq] at hsame
    rw [← UInt64.toNat_inj]
    omega

theorem atIndex_abs (seed : Seed) (index : Int64) :
    seed.atIndex index.abs = .ofNat (seed.toNat + index.toInt.natAbs) := by
  rw [← UInt64.toNat_inj, atIndex, UInt64.toNat_add, toNat_abs, UInt64.toNat_ofNat']

end Seed

namespace DecimalForm

variable (form : DecimalForm) (seed : Seed)

/-- The random number of a stream: its whole part and then its fraction. -/
def drawFrom (s : RandomStream) : Binary64 :=
  let (unit, s) := s.nextUnit
  let whole := scaled form.wholeDigits unit
  let sum :=
    if 0 < form.places then
      whole + Decimal.powerOfTen (-form.places) * scaled form.places s.nextUnit.1
    else whole
  Decimal.roundTo sum form.places

theorem draw_eq_drawFrom (index : Int64) :
    form.draw seed index = form.drawFrom (.ofSeed (seed.atIndex index)) := rfl

/-- The term of an index: a number drawn at its absolute value, with its sign. -/
def term (index : Int64) : Binary64 :=
  let x := form.drawFrom (.ofSeed (.ofNat (seed.toNat + index.toInt.natAbs)))
  if 0 ≤ index.toInt then x else -x

/-- The terms of a call in the order of its indexes. No index stands for the index 1. -/
def terms (call : Call) : List Binary64 :=
  (if call.invocation.indexes = [] then [1] else call.invocation.indexes).map (form.term call.seed)

/-- Terms are added in the order of the indexes. -/
theorem sum_eq_foldl (indexes : List Int64) :
    form.sum seed indexes = (indexes.map (form.term seed)).foldl (· + ·) (.zero false) := by
  have hstep (total : Binary64) (index : Int64) :
      (if 0 ≤ index then total + form.draw seed index.abs
        else total - form.draw seed index.abs) = total + form.term seed index := by
    have hsign : 0 ≤ index ↔ 0 ≤ index.toInt := Int64.le_iff_toInt_le
    rw [draw_eq_drawFrom, Seed.atIndex_abs, term]
    by_cases h : 0 ≤ index
    · rw [if_pos h, if_pos (hsign.mp h)]
    · rw [if_neg h, if_neg (mt hsign.mpr h)]
      rfl
  rw [sum, List.foldl_map]
  simp only [hstep]

theorem term_neg {index : Int64} (hzero : index ≠ 0) (hleast : index ≠ Int64.minValue) :
    form.term seed (-index) = -form.term seed index := by
  have hne : index.toInt ≠ 0 := fun h => hzero (Int64.toInt_inj.mp h)
  rw [term, term, toInt_neg_of_ne hleast, Int.natAbs_neg]
  by_cases hsign : 0 ≤ index.toInt
  · rw [if_pos hsign, if_neg (by omega)]
  · rw [if_neg hsign, if_pos (by omega), Binary64.neg_neg]

/-- What arguments ask for, and what is wrong with them, does not depend on the rest of a call. -/
theorem mapError_ofCall {a b : Call} (h : a.invocation.arguments = b.invocation.arguments) :
    (ofCall a).mapError CallError.problem = (ofCall b).mapError CallError.problem := by
  cases askedBy_or_firstFailed b.invocation.arguments with
  | inl hasked =>
      obtain ⟨form, hasked⟩ := hasked
      rw [ofCall_of_askedBy h hasked, ofCall_of_askedBy rfl hasked]
  | inr hfailed =>
      obtain ⟨problem, hfailed⟩ := hfailed
      rw [ofCall_of_firstFailed h hfailed, ofCall_of_firstFailed rfl hfailed]
      rfl

end DecimalForm

theorem mapError_map {ε ε' α β : Type} (f : ε → ε') (g : α → β) (x : Except ε α) :
    (x.map g).mapError f = (x.mapError f).map g := by
  cases x with
  | error e => rfl
  | ok a => rfl

namespace RandomDecimal

theorem value_eq_map {call : Call} {index : Int64} (h : call.onlyIndex = .ok index) :
    value call = (DecimalForm.ofCall call).map fun form =>
      form.write (form.draw call.seed index) := by
  rw [value, h]
  cases DecimalForm.ofCall call with
  | error e => rfl
  | ok form => rfl

theorem sum_eq_map (call : Call) :
    sum call = (DecimalForm.ofCall call).map fun form =>
      form.write (Decimal.roundTo ((form.terms call).foldl (· + ·) (.zero false)) form.places) := by
  rw [sum]
  simp only [DecimalForm.sum_eq_foldl, DecimalForm.terms]
  cases DecimalForm.ofCall call with
  | error e => rfl
  | ok form => rfl

end RandomDecimal

theorem UniqueId.request_of_count {call : Call} {index : Int64} (h : call.onlyIndex = .ok index)
    (hcount : ¬ ∃ text, call.invocation.arguments = [text]) :
    request call = .error (call.countError .exactlyOne) := by
  simp only [request, h]
  split
  · next text htext => exact absurd ⟨text, htext⟩ hcount
  · rfl

/-- Two calls with the same arguments and one index each. Seed and index add up to the same number
modulo `2 ^ 64`. -/
structure Call.SameOffset (a b : Call) (i j : Int64) : Prop where
  first_index : a.onlyIndex = .ok i
  second_index : b.onlyIndex = .ok j
  arguments : a.invocation.arguments = b.invocation.arguments
  offset : a.seed.toNat + i.toInt ≡ b.seed.toNat + j.toInt [ZMOD 2 ^ 64]

section
variable {a b : Call} {i j : Int64} (h : a.SameOffset b i j)
include h

theorem Call.SameOffset.atIndex_eq : a.seed.atIndex i = b.seed.atIndex j :=
  Seed.atIndex_eq_iff.mpr h.offset

theorem RandomDecimal.mapError_value :
    (value a).mapError CallError.problem = (value b).mapError CallError.problem := by
  have hform := DecimalForm.mapError_ofCall h.arguments
  have hdraw (form : DecimalForm) : form.draw a.seed i = form.draw b.seed j := by
    rw [form.draw_eq_drawFrom, h.atIndex_eq, form.draw_eq_drawFrom]
  rw [value_eq_map h.first_index, value_eq_map h.second_index, mapError_map, mapError_map, hform]
  simp only [hdraw]

theorem UniqueId.mapError_handler {m : Type → Type} [Monad m] [LawfulMonad m] [MonadClock m] :
    Except.mapError CallError.problem <$> handler (m := m) a =
      Except.mapError CallError.problem <$> handler (m := m) b := by
  have hstream : RandomStream.atIndex a.seed i = RandomStream.atIndex b.seed j :=
    congrArg RandomStream.ofSeed h.atIndex_eq
  by_cases hone : ∃ text, b.invocation.arguments = [text]
  · obtain ⟨text, htext⟩ := hone
    have ha : request a = .ok (i, text) := by simp only [request, h.first_index, h.arguments, htext]
    have hb : request b = .ok (j, text) := by simp only [request, h.second_index, htext]
    simp only [handler, ha, hb, hstream]
  · have ha := request_of_count h.first_index (h.arguments ▸ hone)
    have hb := request_of_count h.second_index hone
    have hproblem : (a.countError .exactlyOne).problem = (b.countError .exactlyOne).problem :=
      congrArg (CallProblem.argumentCount .exactlyOne) h.arguments
    simp only [handler, ha, hb, map_pure, Except.mapError, hproblem]

end

namespace RandomDecimal

/-- An index counts through its sum with the seed. A random decimal and an identifier are the same
for two calls with the same sum modulo `2 ^ 64`, and so is what is wrong with a call. A sum adds its
terms in the order of the indexes, each drawn from the seed and the true absolute index, and the
term of a negated index is the negated term. -/
theorem index_is_offset :
    (∀ (a b : Call) (i j : Int64), a.SameOffset b i j →
      (value a).mapError CallError.problem = (value b).mapError CallError.problem ∧
      ∀ (m : Type → Type) [Monad m] [LawfulMonad m] [MonadClock m],
        Except.mapError CallError.problem <$> UniqueId.handler (m := m) a =
          Except.mapError CallError.problem <$> UniqueId.handler (m := m) b) ∧
    (∀ call, sum call = (DecimalForm.ofCall call).map fun form =>
      form.write (Decimal.roundTo ((form.terms call).foldl (· + ·) (.zero false)) form.places)) ∧
    ∀ (form : DecimalForm) (seed : Seed) (before after : List Int64) (index : Int64),
      index ≠ 0 → index ≠ Int64.minValue →
      (before ++ -index :: after).map (form.term seed) =
        before.map (form.term seed) ++ -form.term seed index :: after.map (form.term seed) := by
  refine ⟨fun a b i j h => ⟨mapError_value h, fun m => UniqueId.mapError_handler h⟩, sum_eq_map,
    fun form seed before after index hzero hleast => ?_⟩
  rw [List.map_append, List.map_cons, form.term_neg seed hzero hleast]

/-- One seed is the greatest word, so that its sum with the index wraps around. -/
theorem index_is_offset_of_wrapping :
    (∀ arguments, ((plainCall arguments 18446744073709551615).withIndexes [2]).SameOffset
      ((plainCall arguments 3).withIndexes [-2]) 2 (-2)) ∧
    (value ((plainCall ["2".toList, "3".toList] 18446744073709551615).withIndexes [2])).mapError
        CallError.problem =
      (value ((plainCall ["2".toList, "3".toList] 3).withIndexes [-2])).mapError
        CallError.problem ∧
    Except.mapError CallError.problem <$> UniqueId.handler (m := ReaderM Instant)
        ((plainCall ["%hhmm%-%nnn%".toList] 18446744073709551615).withIndexes [2]) =
      Except.mapError CallError.problem <$> UniqueId.handler (m := ReaderM Instant)
        ((plainCall ["%hhmm%-%nnn%".toList] 3).withIndexes [-2]) ∧
    (5 : Int64) ≠ 0 ∧ (5 : Int64) ≠ Int64.minValue ∧
    [1, -5, Int64.minValue].map (DecimalForm.term ⟨2, 3, none⟩ 7) =
      [DecimalForm.term ⟨2, 3, none⟩ 7 1, -DecimalForm.term ⟨2, 3, none⟩ 7 5,
        DecimalForm.term ⟨2, 3, none⟩ 7 Int64.minValue] := by
  obtain ⟨hsame, -, hterms⟩ := index_is_offset
  have hoffset (arguments : List Text) :
      ((plainCall arguments 18446744073709551615).withIndexes [2]).SameOffset
        ((plainCall arguments 3).withIndexes [-2]) 2 (-2) := by
    refine ⟨rfl, rfl, rfl, ?_⟩
    change ((18446744073709551615 : UInt64).toNat : Int) + (2 : Int64).toInt ≡
      (3 : UInt64).toNat + (-2 : Int64).toInt [ZMOD 2 ^ 64]
    decide
  exact ⟨hoffset, (hsame _ _ 2 (-2) (hoffset _)).1, (hsame _ _ 2 (-2) (hoffset _)).2 _,
    by decide, by decide, hterms _ 7 [1] [Int64.minValue] 5 (by decide) (by decide)⟩

end RandomDecimal
end Placeholders
