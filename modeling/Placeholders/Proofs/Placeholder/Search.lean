import Placeholders.Invocation
import Placeholders.Proofs.Placeholder.Reading

/-!
The search for the first placeholder of a text, by byte offsets: it stops at the least offset at
which the grammar fits, and what is read there is settled by the grammar.
-/

namespace Placeholders
namespace Placeholder

/-- The placeholder read at byte `n`, and the text after it. -/
def readAt? (n : Nat) (t : Text) : Option (Placeholder × Text) := (t.fromByte? n).bind read?

/-- The grammar fits at byte `n`. -/
def OccursAt (t : Text) (n : Nat) : Prop :=
  ∃ s p rest, t.fromByte? n = some s ∧ Opens p s rest

structure FirstAt (n : Nat) (t : Text) (p : Placeholder) (rest : Text) : Prop where
  read : readAt? n t = some (p, rest)
  earlier : ∀ m < n, readAt? m t = none

theorem readAt?_eq_some_iff {n : Nat} {t rest : Text} {p : Placeholder} :
    readAt? n t = some (p, rest) ↔
      ∃ before s, t = before ++ s ∧ before.byteSize = n ∧ read? s = some (p, rest) := by
  simp only [readAt?, Option.bind_eq_some_iff, Text.fromByte?_eq_some_iff]
  constructor
  · intro h
    obtain ⟨s, ⟨before, ht, hn⟩, hread⟩ := h
    exact ⟨before, s, ht, hn, hread⟩
  · intro h
    obtain ⟨before, s, ht, hn, hread⟩ := h
    exact ⟨s, ⟨before, ht, hn⟩, hread⟩

theorem readAt?_eq_none_iff {n : Nat} {t : Text} : readAt? n t = none ↔ ¬ OccursAt t n := by
  simp only [readAt?, Option.bind_eq_none_iff, read?_eq_none_iff]
  constructor
  · intro h hoccurs
    obtain ⟨s, p, rest, hs, hp⟩ := hoccurs
    exact h s hs p rest hp
  · intro h s hs p rest hp
    exact h ⟨s, p, rest, hs, hp⟩

theorem exists_readAt?_of_occursAt {n : Nat} {t : Text} (h : OccursAt t n) :
    ∃ p rest, readAt? n t = some (p, rest) := by
  cases hread : readAt? n t with
  | none => exact absurd h (readAt?_eq_none_iff.mp hread)
  | some found => exact ⟨found.1, found.2, rfl⟩

theorem readAt?_ne_none_iff {n : Nat} {t : Text} : readAt? n t ≠ none ↔ OccursAt t n := by
  rw [ne_eq, readAt?_eq_none_iff, Classical.not_not]

instance (t : Text) (n : Nat) : Decidable (OccursAt t n) :=
  decidable_of_iff _ readAt?_ne_none_iff

theorem FirstAt.unique {n m : Nat} {t r s : Text} {p q : Placeholder} (hp : FirstAt n t p r)
    (hq : FirstAt m t q s) : n = m ∧ p = q ∧ r = s := by
  have hnm : ¬ n < m := fun hlt => by simpa [hp.read] using hq.earlier n hlt
  have hmn : ¬ m < n := fun hlt => by simpa [hq.read] using hp.earlier m hlt
  obtain rfl : n = m := by omega
  have hread := hp.read.symm.trans hq.read
  simp only [Option.some.injEq, Prod.mk.injEq] at hread
  exact ⟨rfl, hread⟩

/-- Bytes before one in the rest of a text are the front, inside the first character, or in the
rest. -/
theorem readAt?_cons_eq_none {c : Char} {n : Nat} {t : Text} (hc : read? (c :: t) = none)
    (h : ∀ m < n, readAt? m t = none) : ∀ m < c.utf8Size + n, readAt? m (c :: t) = none := by
  intro m hm
  by_cases hzero : m = 0
  · subst hzero
    simpa [readAt?, Text.fromByte?_zero] using hc
  · by_cases hlt : m < c.utf8Size
    · simp [readAt?, Text.fromByte?_inside (Nat.pos_of_ne_zero hzero) hlt]
    · obtain ⟨k, rfl⟩ := Nat.exists_eq_add_of_le (Nat.le_of_not_lt hlt)
      have hk := h k (by omega)
      simpa only [readAt?, Text.fromByte?_cons] using hk

theorem firstAt_of_find? {t : Text} {p : Placeholder} (h : find? t = some p) :
    ∃ n rest, FirstAt n t p rest := by
  induction t with
  | nil => contradiction
  | cons c t ih =>
      simp only [find?] at h
      split at h
      · next p' rest hread =>
        obtain rfl := Option.some.inj h
        refine ⟨0, rest, ?_, fun m hm => absurd hm (Nat.not_lt_zero m)⟩
        simpa [readAt?, Text.fromByte?_zero] using hread
      · next hnone =>
        obtain ⟨n, rest, hfirst⟩ := ih h
        refine ⟨c.utf8Size + n, rest, ?_, readAt?_cons_eq_none hnone hfirst.earlier⟩
        simpa only [readAt?, Text.fromByte?_cons] using hfirst.read

theorem readAt?_of_find?_eq_none {t : Text} (h : find? t = none) (n : Nat) :
    readAt? n t = none := by
  induction t generalizing n with
  | nil =>
      rw [readAt?_eq_none_iff]
      intro hoccurs
      obtain ⟨s, p, rest, hs, hp⟩ := hoccurs
      obtain ⟨before, ht, _⟩ := Text.fromByte?_eq_some_iff.mp hs
      obtain ⟨_, rfl⟩ := List.append_eq_nil_iff.mp ht.symm
      exact absurd hp.text (by simp [written])
  | cons c t ih =>
      simp only [find?] at h
      split at h
      · contradiction
      · next hnone =>
        have hc := c.utf8Size_pos
        have hrest : ∀ m < n, readAt? m t = none := fun m _ => ih h m
        exact readAt?_cons_eq_none hnone hrest n (by omega)

theorem find?_eq_none_iff {t : Text} : find? t = none ↔ ∀ n, ¬ OccursAt t n := by
  constructor
  · intro h n
    exact readAt?_eq_none_iff.mp (readAt?_of_find?_eq_none h n)
  · intro h
    cases hfind : find? t with
    | none => rfl
    | some p =>
        obtain ⟨n, rest, hfirst⟩ := firstAt_of_find? hfind
        have hread := hfirst.read
        rw [readAt?_eq_none_iff.mpr (h n)] at hread
        contradiction

theorem find?_of_firstAt {n : Nat} {t rest : Text} {p : Placeholder} (h : FirstAt n t p rest) :
    find? t = some p := by
  cases hfind : find? t with
  | none =>
      have hnone := readAt?_of_find?_eq_none hfind n
      rw [h.read] at hnone
      contradiction
  | some q =>
      obtain ⟨m, r, hfirst⟩ := firstAt_of_find? hfind
      obtain ⟨_, rfl, _⟩ := h.unique hfirst
      rfl

theorem invocation_cases (p : Placeholder) : (∃ i, p.invocation = .ok i) ∨
    ∃ token part, p.invocation = .error (.malformed p.written token part) := by
  unfold invocation
  split
  · next token _ => exact .inr ⟨token, .index, rfl⟩
  · split
    · next token _ => exact .inr ⟨token, .extraEntropy, rfl⟩
    · exact .inl ⟨_, rfl⟩

theorem parse_of_find?_eq_some {t : Text} {p : Placeholder} (h : find? t = some p) :
    Invocation.parse t = p.invocation := by
  simp only [Invocation.parse, h]

theorem parse_eq_noPlaceholder_iff {t u : Text} :
    Invocation.parse t = .error (.noPlaceholder u) ↔ u = t ∧ ∀ n, ¬ OccursAt t n := by
  rw [← find?_eq_none_iff]
  cases hfind : find? t with
  | none =>
      simp only [Invocation.parse, hfind, Except.error.injEq, ParseError.noPlaceholder.injEq,
        and_true]
      exact eq_comm
  | some p =>
      rw [parse_of_find?_eq_some hfind]
      cases invocation_cases p with
      | inl hok =>
          obtain ⟨i, hi⟩ := hok
          simp [hi]
      | inr herror =>
          obtain ⟨token, part, hi⟩ := herror
          simp [hi]

/-- What is read at an offset is a decomposition of the text there by the grammar, the one with the
shortest arguments; something is read wherever there is a decomposition; and the text as a whole is
judged by the least such offset. -/
theorem reading_exact (t : Text) :
    (∀ n s, t.fromByte? n = some s →
      ((∃ p rest, read? s = some (p, rest)) ↔ ∃ p rest, Opens p s rest) ∧
      ∀ p rest, read? s = some (p, rest) →
        p.Opens s rest ∧ p.name = (s.drop 2).takeWhile isNameChar ∧
        s.byteSize = p.written.byteSize + rest.byteSize ∧
        ∀ (q : Placeholder) (r : Text), q.Opens s r →
          q.name = p.name ∧ q.indexes = p.indexes ∧ p.arguments <+: q.arguments ∧
          (q.arguments = p.arguments → q = p ∧ r = rest)) ∧
    (∀ n, OccursAt t n → (∀ m < n, ¬ OccursAt t m) →
      ∃ p rest, readAt? n t = some (p, rest) ∧ Invocation.parse t = p.invocation ∧
        ((∃ i, p.invocation = .ok i) ∨
          ∃ token part, p.invocation = .error (.malformed p.written token part))) ∧
    ∀ u, Invocation.parse t = .error (.noPlaceholder u) ↔ u = t ∧ ∀ n, ¬ OccursAt t n := by
  refine ⟨fun n s _ => ⟨⟨?_, ?_⟩, ?_⟩, ?_, fun u => parse_eq_noPlaceholder_iff⟩
  · intro h
    obtain ⟨p, rest, hread⟩ := h
    exact ⟨p, rest, (read?_eq_some_iff.mp hread).1⟩
  · intro h
    obtain ⟨p, rest, hp⟩ := h
    exact exists_read?_of_opens hp
  · intro p rest h
    obtain ⟨hp, hleast⟩ := read?_eq_some_iff.mp h
    refine ⟨hp, name_of_opens hp, ?_, ?_⟩
    · rw [hp.text, Text.byteSize_append]
    · intro q r hq
      obtain ⟨hname, hindexes, hprefix, hsame⟩ := hp.compare hq (hleast q r hq)
      refine ⟨hname.symm, hindexes.symm, hprefix, fun ha => ?_⟩
      obtain ⟨rfl, rfl⟩ := hsame ha.symm
      exact ⟨rfl, rfl⟩
  · intro n hn hleast
    obtain ⟨p, rest, hread⟩ := exists_readAt?_of_occursAt hn
    have hfirst : FirstAt n t p rest :=
      ⟨hread, fun m hm => readAt?_eq_none_iff.mpr (hleast m hm)⟩
    exact ⟨p, rest, hread, parse_of_find?_eq_some (find?_of_firstAt hfirst), invocation_cases p⟩

/-- The opening at byte 2 begins nothing, and the first `)}` after byte 6 ends nothing. -/
theorem reading_exact_second_end :
    Text.fromByte? 6 "é{{}}{{A.b[+1,](x{)}y)}(true, 7)}z".toList =
      some "{{A.b[+1,](x{)}y)}(true, 7)}z".toList ∧
    read? "{{A.b[+1,](x{)}y)}(true, 7)}z".toList = some (⟨"A.b".toList, some ["+1".toList, []],
      "x{)}y".toList, some ⟨true, some ([' '], ['7'])⟩⟩, ['z']) ∧
    (∀ m < 6, ¬ OccursAt "é{{}}{{A.b[+1,](x{)}y)}(true, 7)}z".toList m) ∧
    (∃ p rest, Opens p "{{A.b[+1,](x{)}y)}(true, 7)}z".toList rest) ∧
    ∃ p rest, readAt? 6 "é{{}}{{A.b[+1,](x{)}y)}(true, 7)}z".toList = some (p, rest) ∧
      Invocation.parse "é{{}}{{A.b[+1,](x{)}y)}(true, 7)}z".toList = p.invocation := by
  have hexact := reading_exact "é{{}}{{A.b[+1,](x{)}y)}(true, 7)}z".toList
  have hfrom : Text.fromByte? 6 "é{{}}{{A.b[+1,](x{)}y)}(true, 7)}z".toList =
      some "{{A.b[+1,](x{)}y)}(true, 7)}z".toList := by decide
  have hread : read? "{{A.b[+1,](x{)}y)}(true, 7)}z".toList = some (⟨"A.b".toList,
      some ["+1".toList, []], "x{)}y".toList, some ⟨true, some ([' '], ['7'])⟩⟩, ['z']) := by
    decide
  have hleast : ∀ m < 6, ¬ OccursAt "é{{}}{{A.b[+1,](x{)}y)}(true, 7)}z".toList m := by decide
  obtain ⟨p, rest, hp, hparse, _⟩ := hexact.2.1 6 (by decide) hleast
  exact ⟨hfrom, hread, hleast, (hexact.1 6 _ hfrom).1.mp ⟨_, _, hread⟩, p, rest, hp, hparse⟩

end Placeholder
end Placeholders
