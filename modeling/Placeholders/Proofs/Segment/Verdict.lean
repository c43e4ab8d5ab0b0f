import Placeholders.Proofs.Segment.Coverage

/-!
The verdict of a scan on a placeholder, beside the verdict of a parse on the text of that
placeholder alone. They differ only where braces that begin nothing stand before a placeholder: the
scan goes on behind the next closing braces, and the parse goes on behind the first brace.
-/

namespace Placeholders

/-- What was written has the form of a placeholder, even if one of its numbers is none. -/
def Meaning.HasForm : Meaning → Prop
  | .function _ => True
  | .testData _ => False
  | .malformed (.noPlaceholder _) => False
  | .malformed (.malformed ..) => True

namespace Placeholder

theorem readAt?_append {n : Nat} {t rest : Text} {p : Placeholder}
    (h : readAt? n t = some (p, rest)) (before after : Text) :
    readAt? (before.byteSize + n) (before ++ (t ++ after)) = some (p, rest ++ after) := by
  obtain ⟨front, s, rfl, rfl, hread⟩ := readAt?_eq_some_iff.mp h
  refine readAt?_eq_some_iff.mpr ⟨before ++ front, s ++ after, ?_, ?_, ?_⟩
  · simp only [List.append_assoc]
  · exact Text.byteSize_append before front
  · rw [read?_eq_some hread, List.append_assoc]
    exact read?_written hread (rest ++ after)

/-- Where no placeholder begins in a text, none begins at the front of a shorter one. -/
theorem not_occursAt_zero {t after : Text} (h : read? (t ++ after) = none) : ¬ OccursAt t 0 := by
  intro hoccurs
  obtain ⟨p, rest, hread⟩ := exists_readAt?_of_occursAt hoccurs
  have hlonger := readAt?_append hread [] after
  simp only [Text.byteSize_nil, Nat.zero_add, List.nil_append, readAt?, Text.fromByte?_zero,
    Option.bind_some, h] at hlonger
  contradiction

theorem FirstAt.pos {n : Nat} {t rest after : Text} {p : Placeholder} (h : FirstAt n t p rest)
    (hnone : read? (t ++ after) = none) : 0 < n := by
  by_contra hzero
  obtain rfl : n = 0 := by omega
  apply not_occursAt_zero hnone
  apply readAt?_ne_none_iff.mp
  rw [h.read]
  exact Option.some_ne_none _

theorem FirstAt.byteSize_eq {n : Nat} {t rest : Text} {p : Placeholder} (h : FirstAt n t p rest) :
    n + p.written.byteSize + rest.byteSize = t.byteSize := by
  obtain ⟨front, s, rfl, rfl, hread⟩ := readAt?_eq_some_iff.mp h.read
  rw [read?_eq_some hread, Text.byteSize_append, Text.byteSize_append, Nat.add_assoc]

theorem invocation_ne_noPlaceholder (p : Placeholder) (u : Text) :
    p.invocation ≠ .error (.noPlaceholder u) := by
  cases invocation_cases p with
  | inl hok =>
      obtain ⟨i, hi⟩ := hok
      simp [hi]
  | inr herror =>
      obtain ⟨token, part, hi⟩ := herror
      simp [hi]

end Placeholder

namespace Occurrence

theorem meaning_ofPlaceholder_eq_malformed {p : Placeholder} {e : ParseError} :
    (ofPlaceholder p).meaning = .malformed e ↔ p.invocation = .error e := by
  simp only [ofPlaceholder]
  cases p.invocation with
  | ok i => simp
  | error e' => simp

theorem meaning_ofBody_eq_malformed {body : Text} {e : ParseError}
    (h : (ofBody body).meaning = .malformed e) : e = .noPlaceholder (ofBody body).written := by
  cases Segment.meaning_ofBody body with
  | inl hdata =>
      obtain ⟨column, hdata⟩ := hdata
      rw [hdata] at h
      contradiction
  | inr hbody => exact Meaning.malformed.inj (h.symm.trans hbody)

theorem exists_of_hasForm {t : Text} {o : Occurrence} (h : read? t = some o)
    (hform : o.meaning.HasForm) :
    ∃ p rest, Placeholder.read? t = some (p, rest) ∧ o = ofPlaceholder p := by
  cases read?_eq_some_iff.mp h with
  | inl hfits => exact hfits
  | inr hcloses =>
      obtain ⟨_, _, body, _, _, _, rfl⟩ := hcloses
      cases Segment.meaning_ofBody body with
      | inl hdata =>
          obtain ⟨column, hdata⟩ := hdata
          rw [hdata] at hform
          exact hform.elim
      | inr hnone =>
          rw [hnone] at hform
          exact hform.elim

end Occurrence

namespace Segment

theorem exists_scanned_text {t : Text} {start : Nat} {o : Occurrence}
    (h : .placeholder start o ∈ scan t) : ∃ before after, t = before ++ (o.written ++ after) ∧
      before.byteSize = start ∧ Occurrence.read? (o.written ++ after) = some o := by
  obtain ⟨s, hs, hread⟩ := read?_of_mem_scan h
  obtain ⟨before, rfl, hstart⟩ := Text.fromByte?_eq_some_iff.mp hs
  obtain ⟨_, after, rfl⟩ := Occurrence.read?_eq_some hread
  exact ⟨before, after, rfl, hstart, hread⟩

/-- A malformed placeholder that has the form of one is malformed in the same way by itself. One
that has not is given as the text without a placeholder. None begins at its opening, and it is that
text by itself unless a placeholder begins further inside. Then that one is what a parse of the text
finds, and it stands in the document too. -/
theorem malformed_verdict {t : Text} {start : Nat} {o : Occurrence} {e : ParseError}
    (ho : .placeholder start o ∈ scan t) (he : o.meaning = .malformed e) :
    (∀ placeholder token part, e = .malformed placeholder token part →
      placeholder = o.written ∧ Invocation.parse o.written = .error e) ∧
    ∀ u, e = .noPlaceholder u → u = o.written ∧ Placeholder.readAt? start t = none ∧
      (Invocation.parse o.written = .error e ↔ ∀ n, ¬ Placeholder.OccursAt o.written n) ∧
      ∀ n p rest, Placeholder.FirstAt n o.written p rest →
        0 < n ∧ Invocation.parse o.written = p.invocation ∧
          n + p.written.byteSize + rest.byteSize = o.written.byteSize ∧
          ∃ after, Placeholder.readAt? (start + n) t = some (p, rest ++ after) := by
  obtain ⟨before, after, rfl, rfl, hread⟩ := exists_scanned_text ho
  cases Occurrence.read?_eq_some_iff.mp hread with
  | inl hfits =>
      obtain ⟨p, rest, hp, rfl⟩ := hfits
      have hconv := Occurrence.meaning_ofPlaceholder_eq_malformed.mp he
      rw [Occurrence.written_ofPlaceholder]
      constructor
      · intro placeholder token part hform
        subst hform
        exact ⟨Placeholder.written_of_invocation_eq_error hconv,
          (Placeholder.parse_written hp).trans hconv⟩
      · intro u hform
        subst hform
        exact absurd hconv (Placeholder.invocation_ne_noPlaceholder p u)
  | inr hcloses =>
      obtain ⟨hnone, _, body, _, _, _, rfl⟩ := hcloses
      obtain rfl := Occurrence.meaning_ofBody_eq_malformed he
      constructor
      · intro placeholder token part hform
        contradiction
      · intro u hform
        obtain rfl := ParseError.noPlaceholder.inj hform
        refine ⟨rfl, ?_, by simp [Placeholder.parse_eq_noPlaceholder_iff], ?_⟩
        · rw [Placeholder.readAt?, Text.fromByte?_append, Option.bind_some, hnone]
        · intro n p rest hfirst
          exact ⟨hfirst.pos hnone,
            Placeholder.parse_of_find?_eq_some (Placeholder.find?_of_firstAt hfirst),
            hfirst.byteSize_eq, after, Placeholder.readAt?_append hfirst.read before after⟩

/-- A placeholder that begins inside is found by a parse of what is scanned as malformed. -/
theorem malformed_verdict_of_inner :
    .placeholder 2 (.ofBody ('{' :: "F()".toList)) ∈ scan ('é' :: '{' :: "{{F()}}".toList) ∧
    (Occurrence.ofBody ('{' :: "F()".toList)).meaning =
      .malformed (.noPlaceholder ('{' :: "{{F()}}".toList)) ∧
    Placeholder.readAt? 2 ('é' :: '{' :: "{{F()}}".toList) = none ∧
    Placeholder.FirstAt 1 ('{' :: "{{F()}}".toList) ⟨['F'], none, [], none⟩ [] ∧
    Invocation.parse ('{' :: "{{F()}}".toList) = .ok ⟨"{{F()}}".toList, ['F'], [], [], {}⟩ ∧
    ∃ after, Placeholder.readAt? 3 ('é' :: '{' :: "{{F()}}".toList) =
      some (⟨['F'], none, [], none⟩, after) := by
  have hmem : .placeholder 2 (.ofBody ('{' :: "F()".toList)) ∈
      scan ('é' :: '{' :: "{{F()}}".toList) := by decide
  have hmeaning : (Occurrence.ofBody ('{' :: "F()".toList)).meaning =
      .malformed (.noPlaceholder ('{' :: "{{F()}}".toList)) := by decide
  have hfirst : Placeholder.FirstAt 1 ('{' :: "{{F()}}".toList) ⟨['F'], none, [], none⟩ [] :=
    ⟨by decide, by decide⟩
  obtain ⟨_, hopening, _, hinner⟩ := (malformed_verdict hmem hmeaning).2 _ rfl
  obtain ⟨_, hparse, _, hdocument⟩ := hinner 1 _ _ hfirst
  exact ⟨hmem, hmeaning, hopening, hfirst, hparse, hdocument⟩

/-- A scan takes the text from a stray brace on as malformed, and a parse of that text finds a
placeholder in it. -/
theorem stray_brace_hides_placeholder :
    scan ('{' :: "{{F()}}".toList) = [.placeholder 0 (.ofBody ('{' :: "F()".toList))] ∧
    (Occurrence.ofBody ('{' :: "F()".toList)).meaning =
      .malformed (.noPlaceholder ('{' :: "{{F()}}".toList)) ∧
    Placeholder.OccursAt ('{' :: "{{F()}}".toList) 1 ∧
    Invocation.parse ('{' :: "{{F()}}".toList) = .ok ⟨"{{F()}}".toList, ['F'], [], [], {}⟩ ∧
    Invocation.parse ('{' :: "{{F()}}".toList) ≠
      .error (.noPlaceholder ('{' :: "{{F()}}".toList)) := by
  decide

end Segment
end Placeholders
