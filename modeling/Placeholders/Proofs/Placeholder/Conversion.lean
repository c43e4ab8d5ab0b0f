import Mathlib.Data.List.Forall2
import Placeholders.Proofs.Placeholder.Search
import Placeholders.Proofs.Text.Numeral
import Placeholders.Proofs.Text.Trimming

/-!
What a placeholder that was read stands for, and which of its numbers is refused. Index elements are
judged in their order, and the extra entropy after all of them.
-/

namespace Placeholders

/-- The index that an element stands for, with any space around it. -/
def IsIndex (element : Text) (i : Int64) : Prop :=
  ∃ core, Text.Trims element core ∧ Numeral.Signed core i.toInt

/-- The trimmed pieces between the commas of a text. Space without a comma holds none. -/
structure SaysArguments (t : Text) (arguments : List Text) : Prop where
  eq_nil_iff : arguments = [] ↔ (∀ c ∈ t, isSpace c) ∧ ',' ∉ t
  pieces : arguments ≠ [] → ∃ pieces, Text.join [','] pieces = t ∧
    (∀ piece ∈ pieces, ',' ∉ piece) ∧ List.Forall₂ Text.Trims pieces arguments

namespace Placeholder

/-- The index elements with more than space in them. -/
def indexElements (p : Placeholder) : List Text :=
  (p.indexes.getD []).filter fun element => !element.all isSpace

def extraDigits? (p : Placeholder) : Option Text := p.entropy.bind fun e => e.extra.map Prod.snd

/-- All numbers of a placeholder are within their bounds. -/
structure Representable (p : Placeholder) : Prop where
  indexes : ∀ element ∈ p.indexElements, ∃ i, IsIndex element i
  extra : ∀ digits, p.extraDigits? = some digits → Numeral.value digits < 2 ^ 64

structure StandsFor (p : Placeholder) (i : Invocation) : Prop where
  written : i.written = p.written
  function : i.function = lookupName p.name
  indexes : List.Forall₂ IsIndex p.indexElements i.indexes
  arguments : SaysArguments p.arguments i.arguments
  mixesIdentity : i.entropy.mixesIdentity = p.entropy.elim true EntropyClause.mixesIdentity
  extra : i.entropy.extra.toNat = p.extraDigits?.elim 0 Numeral.value

/-- The first number that is out of bounds. -/
inductive FirstRefused (p : Placeholder) : Text → NumberPart → Prop where
  | index {before after : List Text} {element token : Text} :
      p.indexElements = before ++ element :: after → (∀ e ∈ before, ∃ i, IsIndex e i) →
      (∀ i, ¬ IsIndex element i) → Text.Trims element token → FirstRefused p token .index
  | extraEntropy {digits : Text} : (∀ e ∈ p.indexElements, ∃ i, IsIndex e i) →
      p.extraDigits? = some digits → 2 ^ 64 ≤ Numeral.value digits →
      FirstRefused p digits .extraEntropy

end Placeholder

theorem isIndex_iff {element : Text} {i : Int64} :
    IsIndex element i ↔ Numeral.signed64? element.trim = some i := by
  rw [Numeral.signed64?_eq_some_iff]
  constructor
  · intro h
    obtain ⟨core, htrims, hsigned⟩ := h
    rwa [Text.trims_iff.mp htrims] at hsigned
  · intro h
    exact ⟨element.trim, Text.trims_iff.mpr rfl, h⟩

/-- Either every element that is not blank gives an index, or the first that gives none is named. -/
theorem indexesOf_cases (elements : List Text) :
    (∃ indexes, indexesOf elements = .ok indexes ∧
      List.Forall₂ IsIndex (elements.filter fun e => !e.all isSpace) indexes) ∨
    ∃ before after element, indexesOf elements = .error element.trim ∧
      (elements.filter fun e => !e.all isSpace) = before ++ element :: after ∧
      (∀ e ∈ before, ∃ i, IsIndex e i) ∧ ∀ i, ¬ IsIndex element i := by
  induction elements with
  | nil => exact .inl ⟨[], rfl, .nil⟩
  | cons e elements ih =>
      by_cases hblank : ∀ c ∈ e, isSpace c
      · have hfilter : (!e.all isSpace) = false := by simpa using hblank
        rw [indexesOf, if_pos (Text.trim_eq_nil hblank), List.filter_cons, hfilter,
          if_neg Bool.false_ne_true]
        exact ih
      · have hfilter : (!e.all isSpace) = true := by simpa using hblank
        rw [indexesOf, if_neg (mt Text.trim_eq_nil_iff.mp hblank), List.filter_cons, if_pos hfilter]
        cases hread : Numeral.signed64? e.trim with
        | none =>
            refine .inr ⟨[], _, e, rfl, rfl, List.forall_mem_nil _, fun i hi => ?_⟩
            rw [isIndex_iff, hread] at hi
            contradiction
        | some n =>
            have hindex : IsIndex e n := isIndex_iff.mpr hread
            cases ih with
            | inl hall =>
                obtain ⟨indexes, hok, hindexes⟩ := hall
                exact .inl ⟨n :: indexes, by rw [hok]; rfl, .cons hindex hindexes⟩
            | inr hbad =>
                obtain ⟨before, after, element, herror, hsplit, hbefore, helement⟩ := hbad
                refine .inr ⟨e :: before, after, element, by rw [herror]; rfl, ?_, ?_, helement⟩
                · rw [hsplit, List.cons_append]
                · exact List.forall_mem_cons.mpr ⟨⟨n, hindex⟩, hbefore⟩

theorem exists_isIndex_of_mem {elements : List Text} {indexes : List Int64}
    (h : List.Forall₂ IsIndex elements indexes) : ∀ e ∈ elements, ∃ i, IsIndex e i := by
  induction h with
  | nil => exact List.forall_mem_nil _
  | cons hindex _ ih => exact List.forall_mem_cons.mpr ⟨⟨_, hindex⟩, ih⟩

theorem saysArguments_argumentsOf (t : Text) : SaysArguments t (argumentsOf t) := by
  have hpieces : List.Forall₂ Text.Trims (Text.splitOn ',' t)
      ((Text.splitOn ',' t).map Text.trim) := by
    rw [List.forall₂_map_right_iff]
    exact List.forall₂_same.mpr fun piece _ => Text.trims_iff.mpr rfl
  have hnone : (Text.splitOn ',' t).map Text.trim = [[]] ↔
      (∀ c ∈ t, isSpace c) ∧ ',' ∉ t := by
    constructor
    · intro h
      obtain ⟨piece, hsplit, hblank⟩ := List.map_eq_singleton_iff.mp h
      have hpiece : t = piece := by rw [← Text.join_splitOn ',' t, hsplit]; rfl
      have hcomma := Text.notMem_of_mem_splitOn (hsplit ▸ List.mem_singleton_self piece)
      rw [hpiece]
      exact ⟨Text.trim_eq_nil_iff.mp hblank, hcomma⟩
    · intro h
      rw [Text.splitOn_of_notMem ',' h.2, List.map_singleton, Text.trim_eq_nil h.1]
  unfold argumentsOf
  split
  · next h => exact ⟨iff_of_true rfl (hnone.mp h), fun hne => absurd rfl hne⟩
  · next h =>
    have hne : (Text.splitOn ',' t).map Text.trim ≠ [] :=
      mt List.map_eq_nil_iff.mp (Text.splitOn_ne_nil ',' t)
    refine ⟨iff_of_false hne (mt hnone.mpr h), fun _ => ⟨_, Text.join_splitOn ',' t, ?_, hpieces⟩⟩
    exact fun piece => Text.notMem_of_mem_splitOn

namespace Placeholder

/-- The extra entropy is refused only for its size: the grammar lets nothing but digits through. -/
theorem readEntropy_eq {p : Placeholder} (h : GrammaticalEntropy p.entropy) :
    p.readEntropy = match p.extraDigits? with
      | none => .ok ⟨p.entropy.elim true EntropyClause.mixesIdentity, 0⟩
      | some digits =>
        if Numeral.value digits < 2 ^ 64 then
          .ok ⟨p.entropy.elim true EntropyClause.mixesIdentity, .ofNat (Numeral.value digits)⟩
        else .error digits := by
  obtain ⟨name, indexes, arguments, entropy⟩ := p
  cases entropy with
  | none => rfl
  | some clause =>
      obtain ⟨mixes, extra⟩ := clause
      cases extra with
      | none => rfl
      | some extra =>
          obtain ⟨blanks, digits⟩ := extra
          obtain ⟨-, hne, hdigits⟩ := h _ rfl blanks digits rfl
          have hword := Numeral.word64?_of_digits hne hdigits
          simp only [readEntropy, EntropyClause.read, extraDigits?, hword, Option.bind_some,
            Option.map_some, Option.elim_some]
          by_cases hlt : Numeral.value digits < 2 ^ 64
          · simp only [if_pos hlt]
          · simp only [if_neg hlt]

section
variable {p : Placeholder} {i : Invocation} {entropy : Entropy} {indexes : List Int64}

theorem standsFor_mk (hindexes : List.Forall₂ IsIndex p.indexElements indexes)
    (hmixes : entropy.mixesIdentity = p.entropy.elim true EntropyClause.mixesIdentity)
    (hextra : entropy.extra.toNat = p.extraDigits?.elim 0 Numeral.value) :
    p.StandsFor ⟨p.written, lookupName p.name, indexes, argumentsOf p.arguments, entropy⟩ where
  written := rfl
  function := rfl
  indexes := hindexes
  arguments := saysArguments_argumentsOf p.arguments
  mixesIdentity := hmixes
  extra := hextra

/-- A placeholder stands for an invocation, or one of its numbers is the first that is refused. -/
theorem invocation_standsFor_or_refused (h : GrammaticalEntropy p.entropy) :
    (∃ i, p.invocation = .ok i ∧ p.StandsFor i ∧ p.Representable) ∨
    ∃ token part, p.invocation = .error (.malformed p.written token part) ∧
      p.FirstRefused token part ∧ ¬ p.Representable := by
  have hentropy := readEntropy_eq h
  cases indexesOf_cases (p.indexes.getD []) with
  | inr hbad =>
      obtain ⟨before, after, element, herror, hsplit, hbefore, helement⟩ := hbad
      refine .inr ⟨element.trim, .index, by simp only [invocation, herror],
        .index hsplit hbefore helement (Text.trims_iff.mpr rfl), fun hall => ?_⟩
      have hmem : element ∈ p.indexElements := by
        rw [indexElements, hsplit]
        exact List.mem_append_right before List.mem_cons_self
      obtain ⟨i, hi⟩ := hall.indexes element hmem
      exact helement i hi
  | inl hall =>
      obtain ⟨indexes, hok, hindexes⟩ := hall
      have hgood : ∀ e ∈ p.indexElements, ∃ i, IsIndex e i := exists_isIndex_of_mem hindexes
      cases hextra : p.extraDigits? with
      | none =>
          rw [hextra] at hentropy
          refine .inl ⟨_, by simp only [invocation, hok, hentropy]; rfl,
            standsFor_mk hindexes rfl (by rw [hextra]; rfl), hgood, fun digits hdigits => ?_⟩
          rw [hextra] at hdigits
          contradiction
      | some digits =>
          rw [hextra] at hentropy
          simp only at hentropy
          by_cases hlt : Numeral.value digits < 2 ^ 64
          · rw [if_pos hlt] at hentropy
            refine .inl ⟨_, by simp only [invocation, hok, hentropy]; rfl,
              standsFor_mk hindexes rfl ?_, hgood, fun others hothers => ?_⟩
            · rw [hextra]
              exact UInt64.toNat_ofNat_of_lt' hlt
            · rwa [Option.some.inj (hothers.symm.trans hextra)]
          · rw [if_neg hlt] at hentropy
            exact .inr ⟨digits, .extraEntropy, by simp only [invocation, hok, hentropy],
              .extraEntropy hgood hextra (Nat.le_of_not_lt hlt),
              fun hp => hlt (hp.extra digits hextra)⟩

end

/-- A placeholder that is read anywhere in a text becomes an invocation if and only if every index
element that is not blank is a number of 64 bits with at most one sign, and the extra entropy a
word of 64 bits. The invocation has these numbers and the trimmed arguments. Otherwise the error
names the whole placeholder and the first element that is no index, or the extra entropy if there
is none. -/
theorem conversion_exact {n : Nat} {t rest : Text} {p : Placeholder}
    (h : readAt? n t = some (p, rest)) :
    ((∃ i, p.invocation = .ok i) ↔ p.Representable) ∧
    (∀ i, p.invocation = .ok i → p.StandsFor i) ∧
    ∀ e, p.invocation = .error e →
      ∃ token part, e = .malformed p.written token part ∧ p.FirstRefused token part := by
  obtain ⟨_, s, _, _, hread⟩ := readAt?_eq_some_iff.mp h
  have hgrammar := (read?_eq_some_iff.mp hread).1.grammatical
  cases invocation_standsFor_or_refused hgrammar.entropy with
  | inl hok =>
      obtain ⟨i, hi, hstands, hp⟩ := hok
      rw [hi]
      refine ⟨iff_of_true ⟨i, rfl⟩ hp, fun j hj => ?_, fun e he => by contradiction⟩
      rwa [← Except.ok.inj hj]
  | inr herror =>
      obtain ⟨token, part, hi, hrefused, hp⟩ := herror
      rw [hi]
      refine ⟨iff_of_false (fun hok => ?_) hp, fun j hj => by contradiction, fun e he => ?_⟩
      · obtain ⟨j, hj⟩ := hok
        contradiction
      · exact ⟨token, part, (Except.error.inj he).symm, hrefused⟩

/-- Leading zeros, a plus sign and the least index are in bounds; of a lone sign and a number that
is too large the sign is named, since it stands before the extra entropy. -/
theorem conversion_exact_of_bounds :
    (readAt? 2 "é{{F[ +007,,-9223372036854775808](x ,)}(false,18446744073709551615)}".toList =
        some (⟨['F'], some [" +007".toList, [], "-9223372036854775808".toList], "x ,".toList,
          some ⟨false, some ([], "18446744073709551615".toList)⟩⟩, []) ∧
      StandsFor ⟨['F'], some [" +007".toList, [], "-9223372036854775808".toList], "x ,".toList,
          some ⟨false, some ([], "18446744073709551615".toList)⟩⟩
        ⟨"{{F[ +007,,-9223372036854775808](x ,)}(false,18446744073709551615)}".toList, ['F'],
          [7, Int64.minValue], [['x'], []], ⟨false, 18446744073709551615⟩⟩) ∧
    readAt? 0 "{{F[1, +]( )}(true,18446744073709551616)}".toList =
        some (⟨['F'], some [['1'], " +".toList], [' '],
          some ⟨true, some ([], "18446744073709551616".toList)⟩⟩, []) ∧
      FirstRefused ⟨['F'], some [['1'], " +".toList], [' '],
          some ⟨true, some ([], "18446744073709551616".toList)⟩⟩ ['+'] .index := by
  have hread : readAt? 2
      "é{{F[ +007,,-9223372036854775808](x ,)}(false,18446744073709551615)}".toList =
        some (⟨['F'], some [" +007".toList, [], "-9223372036854775808".toList], "x ,".toList,
          some ⟨false, some ([], "18446744073709551615".toList)⟩⟩, []) := by
    decide +kernel
  have hread' : readAt? 0 "{{F[1, +]( )}(true,18446744073709551616)}".toList =
        some (⟨['F'], some [['1'], " +".toList], [' '],
          some ⟨true, some ([], "18446744073709551616".toList)⟩⟩, []) := by
    decide +kernel
  obtain ⟨-, hstands, -⟩ := conversion_exact hread
  obtain ⟨-, -, hrefused⟩ := conversion_exact hread'
  obtain ⟨token, part, herror, hfirst⟩ := hrefused _ rfl
  obtain ⟨-, rfl, rfl⟩ := ParseError.malformed.inj herror
  exact ⟨⟨hread, hstands _ rfl⟩, hread', hfirst⟩

end Placeholder
end Placeholders
