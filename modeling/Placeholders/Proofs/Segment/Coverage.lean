import Placeholders.Proofs.Segment.Scan

/-!
What a scan finds and what it passes over. Every opening lies inside a placeholder or begins
nothing, and the extent and the meaning of a placeholder are settled by the text at its offset
alone.
-/

namespace Placeholders
namespace Segment

def Covered (segments : List Segment) (n : Nat) : Prop :=
  ∃ start o, .placeholder start o ∈ segments ∧ (span start o).1 ≤ n ∧ n < (span start o).2

theorem mem_consChar {c : Char} {segments : List Segment} {n : Nat} {o : Occurrence}
    (h : .placeholder n o ∈ segments) : .placeholder n o ∈ consChar c segments := by
  unfold consChar
  split
  · cases List.mem_cons.mp h with
    | inl heq => contradiction
    | inr hmem => exact List.mem_cons_of_mem _ hmem
  · exact List.mem_cons_of_mem _ h

theorem mem_of_mem_consChar {c : Char} {segments : List Segment} {n : Nat} {o : Occurrence}
    (h : .placeholder n o ∈ consChar c segments) : .placeholder n o ∈ segments := by
  unfold consChar at h
  split at h
  · cases List.mem_cons.mp h with
    | inl heq => contradiction
    | inr hmem => exact List.mem_cons_of_mem _ hmem
  · cases List.mem_cons.mp h with
    | inl heq => contradiction
    | inr hmem => exact hmem

theorem Scans.start_le {start : Nat} {t : Text} {segments : List Segment}
    (h : Scans start t segments) {n : Nat} {o : Occurrence} (ho : .placeholder n o ∈ segments) :
    start ≤ n := by
  induction h with
  | done => contradiction
  | occurrence _ _ ih =>
      cases List.mem_cons.mp ho with
      | inl heq =>
          obtain ⟨rfl, _⟩ := Segment.placeholder.inj heq
          exact Nat.le_refl _
      | inr hmem => exact Nat.le_trans (Nat.le_add_right ..) (ih hmem)
  | char _ _ ih => exact Nat.le_trans (Nat.le_add_right ..) (ih (mem_of_mem_consChar ho))

theorem Covered.cons {segments : List Segment} {n : Nat} (h : Covered segments n)
    (segment : Segment) : Covered (segment :: segments) n := by
  obtain ⟨start, o, ho, hspan⟩ := h
  exact ⟨start, o, List.mem_cons_of_mem _ ho, hspan⟩

theorem Covered.consChar {segments : List Segment} {n : Nat} (h : Covered segments n)
    (c : Char) : Covered (consChar c segments) n := by
  obtain ⟨start, o, ho, hspan⟩ := h
  exact ⟨start, o, mem_consChar ho, hspan⟩

theorem Scans.covered_or_none {start : Nat} {t : Text} {segments : List Segment}
    (h : Scans start t segments) {before s : Text} (ht : t = before ++ s) (hs : s ≠ []) :
    Covered segments (start + before.byteSize) ∨ Occurrence.read? s = none := by
  induction h generalizing before with
  | done => exact absurd (List.append_eq_nil_iff.mp ht.symm).2 hs
  | @occurrence start o rest segments _ _ ih =>
      by_cases hlt : before.byteSize < o.written.byteSize
      · exact .inl ⟨start, o, List.mem_cons_self .., Nat.le_add_right .., Nat.add_lt_add_left hlt _⟩
      · -- The position is past the occurrence, in the text that is scanned next.
        obtain ⟨d, rfl⟩ := Text.prefix_of_byteSize_le ht (Nat.le_of_not_lt hlt)
        rw [List.append_assoc, List.append_cancel_left_eq] at ht
        rw [Text.byteSize_append, ← Nat.add_assoc]
        exact (ih ht).imp_left fun hd => hd.cons _
  | @char start c t segments hread _ ih =>
      cases before with
      | nil =>
          obtain rfl : c :: t = s := ht
          exact .inr hread
      | cons d before =>
          obtain ⟨rfl, rfl⟩ := List.cons.inj ht
          rw [Text.byteSize_cons, ← Nat.add_assoc]
          exact (ih rfl).imp_left fun hd => hd.consChar _

theorem span_ofPlaceholder (start : Nat) (p : Placeholder) :
    (span start (.ofPlaceholder p)).2 = start + p.written.byteSize := rfl

theorem span_ofBody (start : Nat) (body : Text) :
    (span start (.ofBody body)).2 = start + (2 + body.byteSize + 2) := by
  have hopen : Text.byteSize ['{', '{'] = 2 := by decide
  have hclose : Text.byteSize ['}', '}'] = 2 := by decide
  have hwritten : (Occurrence.ofBody body).written = ['{', '{'] ++ body ++ ['}', '}'] := rfl
  rw [span, hwritten, Text.byteSize_append, Text.byteSize_append, hopen, hclose]

theorem meaning_ofPlaceholder (p : Placeholder) :
    (∃ i, p.invocation = .ok i ∧ (Occurrence.ofPlaceholder p).meaning = .function i) ∨
      ∃ e, p.invocation = .error e ∧ (Occurrence.ofPlaceholder p).meaning = .malformed e := by
  simp only [Occurrence.ofPlaceholder]
  cases hconv : p.invocation with
  | ok i => exact .inl ⟨i, rfl, rfl⟩
  | error e => exact .inr ⟨e, rfl, rfl⟩

theorem meaning_ofBody (body : Text) :
    (∃ column, (Occurrence.ofBody body).meaning = .testData column) ∨
      (Occurrence.ofBody body).meaning =
        .malformed (.noPlaceholder (Occurrence.ofBody body).written) := by
  simp only [Occurrence.ofBody]
  split
  · exact .inl ⟨_, rfl⟩
  · exact .inr rfl

/-- No opening is missed: each lies inside a placeholder, unless no placeholder begins there and it
is never closed. And none is misplaced: where the grammar fits at the offset of a placeholder, this
is what it finds there, converted; elsewhere it reaches to the first closing braces. -/
theorem scan_coverage (t : Text) :
    (∀ n inside, t.fromByte? n = some ('{' :: '{' :: inside) →
      Covered (scan t) n ∨ Placeholder.readAt? n t = none ∧ ¬ ['}', '}'] <:+: inside) ∧
    ∀ start o, .placeholder start o ∈ scan t →
      (∀ p rest, Placeholder.readAt? start t = some (p, rest) →
        (span start o).2 = start + p.written.byteSize ∧
        ((∃ i, p.invocation = .ok i ∧ o.meaning = .function i) ∨
          ∃ e, p.invocation = .error e ∧ o.meaning = .malformed e)) ∧
      (Placeholder.readAt? start t = none →
        ∃ inside body after, t.fromByte? start = some ('{' :: '{' :: inside) ∧
          Text.FirstCut ['}', '}'] inside body after ∧
          (span start o).2 = start + (2 + body.byteSize + 2) ∧
          ((∃ column, o.meaning = .testData column) ∨
            o.meaning = .malformed (.noPlaceholder o.written))) := by
  constructor
  · intro n inside h
    obtain ⟨before, ht, rfl⟩ := Text.fromByte?_eq_some_iff.mp h
    have hcover := (scans_scan t).covered_or_none ht (List.cons_ne_nil _ _)
    rw [Nat.zero_add, Occurrence.read?_eq_none_iff] at hcover
    simpa only [Placeholder.readAt?, h, Option.bind_some] using hcover
  · intro start o ho
    obtain ⟨s, hs, hread⟩ := read?_of_mem_scan ho
    simp only [Placeholder.readAt?, hs, Option.bind_some]
    cases Occurrence.read?_eq_some_iff.mp hread with
    | inl hfits =>
        obtain ⟨p, rest, hp, rfl⟩ := hfits
        rw [hp]
        refine ⟨fun q r hq => ?_, fun hnone => absurd hnone (Option.some_ne_none _)⟩
        obtain ⟨rfl, rfl⟩ : p = q ∧ rest = r := by simpa using hq
        exact ⟨span_ofPlaceholder start p, meaning_ofPlaceholder p⟩
    | inr hcloses =>
        obtain ⟨hnone, inside, body, after, rfl, hcut, rfl⟩ := hcloses
        rw [hnone]
        refine ⟨fun p rest hp => absurd hp.symm (Option.some_ne_none _), fun _ => ?_⟩
        exact ⟨inside, body, after, rfl, hcut, span_ofBody start body, meaning_ofBody body⟩

/-- The grammar fits at byte 1, which lies inside the placeholder at byte 0. -/
theorem scan_coverage_of_braces :
    scan "{{{A()}}}".toList = [.placeholder 0 (.ofBody ['{', 'A', '(', ')']), .literal ['}']] ∧
    Placeholder.OccursAt "{{{A()}}}".toList 1 ∧ Covered (scan "{{{A()}}}".toList) 1 ∧
    ∃ inside body after, "{{{A()}}}".toList = '{' :: '{' :: inside ∧
      Text.FirstCut ['}', '}'] inside body after ∧ 8 = 2 + body.byteSize + 2 := by
  obtain ⟨hcovered, hplaced⟩ := scan_coverage "{{{A()}}}".toList
  have hscan : scan "{{{A()}}}".toList =
      [.placeholder 0 (.ofBody ['{', 'A', '(', ')']), .literal ['}']] := by decide
  have hmem : .placeholder 0 (.ofBody ['{', 'A', '(', ')']) ∈ scan "{{{A()}}}".toList := by
    rw [hscan]
    exact List.mem_cons_self ..
  have hinside : Covered (scan "{{{A()}}}".toList) 1 := by
    cases hcovered 1 ['A', '(', ')', '}', '}', '}'] (by decide) with
    | inl h => exact h
    | inr h => exact absurd ⟨['A', '(', ')'], ['}'], by decide⟩ h.2
  obtain ⟨inside, body, after, htext, hcut, hend, _⟩ := (hplaced 0 _ hmem).2 (by decide)
  rw [Text.fromByte?_zero, Option.some.injEq] at htext
  have hspan : (span 0 (.ofBody ['{', 'A', '(', ')'])).2 = 8 := by decide
  rw [hspan, Nat.zero_add] at hend
  exact ⟨hscan, by decide, hinside, inside, body, after, htext, hcut, hend⟩

end Segment
end Placeholders
