import Mathlib.Data.List.Basic
import Placeholders.Proofs.Placeholder.Search

/-!
A placeholder delimits itself: what follows it has no part in how it is read. The danger is an end
of the arguments that was refused in one text and is accepted in another. It would have to reach
past the end of the placeholder, over the closing that was accepted, and no closing holds another.
-/

namespace Placeholders

theorem EntropyClause.written_eq_inside {e : EntropyClause} (h : e.Grammatical) :
    ∃ inside, e.written = '(' :: inside ++ [')'] ∧ ')' ∉ inside := by
  obtain ⟨mixes, extra⟩ := e
  have hflag : ')' ∉ flag mixes := by cases mixes <;> decide
  cases extra with
  | none => exact ⟨flag mixes, by simp [written], hflag⟩
  | some extra =>
      obtain ⟨blanks, digits⟩ := extra
      obtain ⟨hblanks, _, hdigits⟩ := h blanks digits rfl
      have hb : ')' ∉ blanks := fun hmem => absurd (hblanks _ hmem) (by decide)
      have hd : ')' ∉ digits := fun hmem => absurd (hdigits _ hmem) (by decide)
      exact ⟨flag mixes ++ ',' :: (blanks ++ digits), by simp [written], by simp [hflag, hb, hd]⟩

namespace Placeholder

/-- In a closing `)}` occurs at the front, and otherwise only at the very end. -/
theorem closing_end {entropy : Option EntropyClause} (h : GrammaticalEntropy entropy)
    {before after : Text} (hbefore : before ≠ [])
    (heq : writtenClosing entropy = before ++ ')' :: '}' :: after) : after = [] := by
  obtain ⟨c, before, rfl⟩ := List.exists_cons_of_ne_nil hbefore
  cases entropy with
  | none =>
      have htail : ['}', '}'] = before ++ ')' :: '}' :: after := (List.cons.inj heq).2
      have hmem : ')' ∈ (['}', '}'] : Text) := by
        rw [htail]
        exact List.mem_append_right _ (List.mem_cons_self ..)
      exact absurd hmem (by decide)
  | some e =>
      obtain ⟨inside, he, hinside⟩ := EntropyClause.written_eq_inside (h e rfl)
      have htail : ('}' :: '(' :: inside) ++ ')' :: ['}'] = before ++ ')' :: '}' :: after := by
        simpa [writtenClosing, writtenEntropy, he] using (List.cons.inj heq).2
      have hfront : ')' ∉ '}' :: '(' :: inside := by simp [hinside]
      obtain ⟨_, _, hlast⟩ := (List.append_cons_inj_of_notMem hfront (by decide)).mp htail
      exact (List.cons.inj hlast).2.symm

/-- An earlier end of the arguments lies within the text up to the closing, so that it is there
whatever follows. -/
theorem ArgumentsEnd.earlier {a b post s : Text} {e f : Option EntropyClause}
    (hf : ArgumentsEnd (a ++ (writtenClosing e ++ post)) b f s) (hlt : b.length < a.length)
    (rest : Text) : ∃ r, ArgumentsEnd (a ++ (writtenClosing e ++ rest)) b f r := by
  have htext := hf.text
  obtain ⟨d, rfl⟩ : b <+: a :=
    List.prefix_of_prefix_length_le ⟨_, htext.symm⟩ ⟨_, rfl⟩ (Nat.le_of_lt hlt)
  have hd : d ≠ [] := by
    intro hnil
    subst hnil
    simp at hlt
  have hclosing : (d ++ writtenClosing e) ++ post = writtenClosing f ++ s := by
    simpa only [List.append_assoc, List.append_cancel_left_eq] using htext
  cases List.append_eq_append_iff.mp hclosing with
  | inl hpast =>
      obtain ⟨extra, hextra, _⟩ := hpast
      have hend : writtenClosing f = d ++ ')' :: '}' :: (writtenEntropy e ++ ['}'] ++ extra) := by
        simpa [writtenClosing] using hextra
      have hnil := closing_end hf.clause hd hend
      simp at hnil
  | inr hwithin =>
      obtain ⟨r, hr, _⟩ := hwithin
      refine ⟨r ++ rest, hf.line, hf.clause, ?_⟩
      simp only [List.append_assoc]
      rw [← List.append_assoc d, hr, List.append_assoc]

theorem readArguments?_written {t arguments rest : Text} {entropy : Option EntropyClause}
    (h : readArguments? t = some (arguments, entropy, rest)) (post : Text) :
    readArguments? (arguments ++ (writtenClosing entropy ++ post)) =
      some (arguments, entropy, post) := by
  obtain ⟨hend, hleast⟩ := readArguments?_eq_some_iff.mp h
  refine readArguments?_eq_some_iff.mpr ⟨⟨hend.line, hend.clause, rfl⟩, fun b f s hf => ?_⟩
  by_contra hlt
  obtain ⟨r, hr⟩ := hf.earlier (Nat.lt_of_not_le hlt) rest
  rw [← hend.text] at hr
  exact hlt (hleast b f r hr)

theorem read?_written {t rest : Text} {p : Placeholder} (h : read? t = some (p, rest))
    (post : Text) : read? (p.written ++ post) = some (p, post) := by
  obtain ⟨hname, hindexes, u, _, hread⟩ := head_of_read? h
  rw [written_eq_head, List.append_assoc, List.append_assoc, read?_head hname hindexes,
    readArguments?_written hread post]
  rfl

/-- A placeholder that is read anywhere is found again in its own text. -/
theorem find?_written {t rest : Text} {p : Placeholder} (h : read? t = some (p, rest)) :
    read? p.written = some (p, []) ∧ find? p.written = some p := by
  have hread : read? p.written = some (p, []) := by simpa using read?_written h []
  have hfront : readAt? 0 p.written = some (p, []) := by
    simpa [readAt?, Text.fromByte?_zero] using hread
  exact ⟨hread, find?_of_firstAt ⟨hfront, fun m hm => absurd hm (Nat.not_lt_zero m)⟩⟩

theorem parse_written {t rest : Text} {p : Placeholder} (h : read? t = some (p, rest)) :
    Invocation.parse p.written = p.invocation :=
  parse_of_find?_eq_some (find?_written h).2

theorem written_of_invocation_eq_ok {p : Placeholder} {i : Invocation}
    (h : p.invocation = .ok i) : i.written = p.written := by
  unfold invocation at h
  split at h
  · contradiction
  · split at h
    · contradiction
    · obtain rfl := Except.ok.inj h
      rfl

theorem written_of_invocation_eq_error {p : Placeholder} {placeholder token : Text}
    {part : NumberPart} (h : p.invocation = .error (.malformed placeholder token part)) :
    placeholder = p.written := by
  cases invocation_cases p with
  | inl hok =>
      obtain ⟨i, hi⟩ := hok
      rw [hi] at h
      contradiction
  | inr herror =>
      obtain ⟨token', part', hi⟩ := herror
      rw [hi] at h
      simp only [Except.error.injEq, ParseError.malformed.injEq] at h
      exact h.1.symm

/-- A parse that finds a placeholder, good or bad, is a conversion of it, and so is the parse of its
own text. -/
theorem firstAt_of_parse_ne {t : Text} (h : ∀ u, Invocation.parse t ≠ .error (.noPlaceholder u)) :
    ∃ n p rest, FirstAt n t p rest ∧ Invocation.parse t = p.invocation ∧
      Invocation.parse p.written = p.invocation ∧ find? p.written = some p ∧
      read? p.written = some (p, []) := by
  cases hfind : find? t with
  | none => exact absurd (by simp only [Invocation.parse, hfind]) (h t)
  | some p =>
      obtain ⟨n, rest, hfirst⟩ := firstAt_of_find? hfind
      obtain ⟨_, s, _, _, hread⟩ := readAt?_eq_some_iff.mp hfirst.read
      obtain ⟨hagain, hfound⟩ := find?_written hread
      exact ⟨n, p, rest, hfirst, parse_of_find?_eq_some hfind, parse_of_find?_eq_some hfound,
        hfound, hagain⟩

/-- A placeholder read anywhere in a text is read again, part for part, at the front of its own
text whatever follows it. So a parse is settled by the text of the placeholder it found, and that
text does not occur before the offset at which it was found. -/
theorem self_delimiting (t : Text) :
    (∀ n s p rest, t.fromByte? n = some s → read? s = some (p, rest) →
      s = p.written ++ rest ∧ read? p.written = some (p, []) ∧
      ∀ post, read? (p.written ++ post) = some (p, post)) ∧
    (∀ i, Invocation.parse t = .ok i → Invocation.parse i.written = .ok i ∧
      ∃ n p rest, FirstAt n t p rest ∧ find? i.written = some p ∧
        read? i.written = some (p, [])) ∧
    (∀ placeholder token part,
      Invocation.parse t = .error (.malformed placeholder token part) →
      Invocation.parse placeholder = .error (.malformed placeholder token part) ∧
      ∃ n p rest, FirstAt n t p rest ∧ p.written = placeholder) ∧
    ∀ n p rest, FirstAt n t p rest → Invocation.parse t = p.invocation ∧
      t.fromByte? n = some (p.written ++ rest) ∧
      ∀ m after, t.fromByte? m = some (p.written ++ after) → n ≤ m := by
  refine ⟨?_, ?_, ?_, ?_⟩
  · intro n s p rest _ h
    exact ⟨read?_eq_some h, (find?_written h).1, read?_written h⟩
  · intro i h
    have hne : ∀ u, Invocation.parse t ≠ .error (.noPlaceholder u) := by simp [h]
    obtain ⟨n, p, rest, hfirst, hparse, hagain, hfound, hread⟩ := firstAt_of_parse_ne hne
    rw [h] at hparse
    rw [written_of_invocation_eq_ok hparse.symm]
    exact ⟨hagain.trans hparse.symm, n, p, rest, hfirst, hfound, hread⟩
  · intro placeholder token part h
    have hne : ∀ u, Invocation.parse t ≠ .error (.noPlaceholder u) := by simp [h]
    obtain ⟨n, p, rest, hfirst, hparse, hagain, _⟩ := firstAt_of_parse_ne hne
    rw [h] at hparse
    obtain rfl := written_of_invocation_eq_error hparse.symm
    exact ⟨hagain.trans hparse.symm, n, p, rest, hfirst, rfl⟩
  · intro n p rest hfirst
    obtain ⟨before, s, rfl, rfl, hread⟩ := readAt?_eq_some_iff.mp hfirst.read
    refine ⟨parse_of_find?_eq_some (find?_of_firstAt hfirst), ?_, ?_⟩
    · rw [Text.fromByte?_append, read?_eq_some hread]
    · intro m after hm
      by_contra hlt
      have hnone := hfirst.earlier m (Nat.lt_of_not_le hlt)
      simp only [readAt?, hm, Option.bind_some, read?_written hread] at hnone
      contradiction

/-- The arguments hold an end that ends nothing, and so does the text that follows. -/
theorem self_delimiting_before_closing :
    Text.fromByte? 1 ">{{A[2](x{)}b)}}{{)}}".toList = some "{{A[2](x{)}b)}}{{)}}".toList ∧
    read? "{{A[2](x{)}b)}}{{)}}".toList =
      some (⟨"A".toList, some [['2']], "x{)}b".toList, none⟩, "{{)}}".toList) ∧
    Invocation.parse ">{{A[2](x{)}b)}}{{)}}".toList =
      .ok ⟨"{{A[2](x{)}b)}}".toList, "A".toList, [2], ["x{)}b".toList], {}⟩ ∧
    (∀ post, read? ("{{A[2](x{)}b)}}".toList ++ post) =
      some (⟨"A".toList, some [['2']], "x{)}b".toList, none⟩, post)) ∧
    Invocation.parse "{{A[2](x{)}b)}}".toList =
      .ok ⟨"{{A[2](x{)}b)}}".toList, "A".toList, [2], ["x{)}b".toList], {}⟩ := by
  have hdelimits := self_delimiting ">{{A[2](x{)}b)}}{{)}}".toList
  have hfrom : Text.fromByte? 1 ">{{A[2](x{)}b)}}{{)}}".toList =
      some "{{A[2](x{)}b)}}{{)}}".toList := by decide
  have hread : read? "{{A[2](x{)}b)}}{{)}}".toList =
      some (⟨"A".toList, some [['2']], "x{)}b".toList, none⟩, "{{)}}".toList) := by decide
  have hparse : Invocation.parse ">{{A[2](x{)}b)}}{{)}}".toList =
      .ok ⟨"{{A[2](x{)}b)}}".toList, "A".toList, [2], ["x{)}b".toList], {}⟩ := by decide
  obtain ⟨_, _, hpost⟩ := hdelimits.1 1 _ _ _ hfrom hread
  exact ⟨hfrom, hread, hparse, hpost, (hdelimits.2.1 _ hparse).1⟩

end Placeholder
end Placeholders
