import Placeholders.Proofs.Placeholder.Delimitation
import Placeholders.Proofs.Text.Splitting
import Placeholders.Segment

/-!
The scan of a document, step by step, and the way its segments lie in the document: end to end, each
placeholder at its own bytes, with no literal that is empty or follows another.
-/

namespace Placeholders

namespace Occurrence

/-- What begins at the front of a text is a placeholder, or text up to the first closing braces
where there is none. -/
theorem read?_eq_some_iff {t : Text} {o : Occurrence} : read? t = some o ↔
    (∃ p rest, Placeholder.read? t = some (p, rest) ∧ o = ofPlaceholder p) ∨
      Placeholder.read? t = none ∧ ∃ inside body after, t = '{' :: '{' :: inside ∧
        Text.FirstCut ['}', '}'] inside body after ∧ o = ofBody body := by
  cases hread : Placeholder.read? t with
  | some found =>
      obtain ⟨p, rest⟩ := found
      simp only [read?, hread, Option.some.injEq, Prod.mk.injEq, reduceCtorEq, false_and, or_false]
      constructor
      · intro h
        exact ⟨p, rest, ⟨rfl, rfl⟩, h.symm⟩
      · intro h
        obtain ⟨_, _, ⟨rfl, _⟩, ho⟩ := h
        exact ho.symm
  | none =>
      simp only [read?, hread, reduceCtorEq, false_and, exists_false, false_or, true_and]
      split
      · next inside =>
        simp only [Option.map_eq_some_iff, Prod.exists, Text.cutAt_eq_some_iff, List.cons.injEq,
          true_and]
        constructor
        · intro h
          obtain ⟨body, after, hcut, ho⟩ := h
          exact ⟨inside, body, after, rfl, hcut, ho.symm⟩
        · intro h
          obtain ⟨_, body, after, rfl, hcut, ho⟩ := h
          exact ⟨body, after, hcut, ho.symm⟩
      · next hopen =>
        simp only [reduceCtorEq, false_iff]
        intro h
        obtain ⟨inside, _, _, ht, _⟩ := h
        exact hopen inside ht

/-- Double braces open no occurrence only if the grammar fits nothing there and they stay open. -/
theorem read?_eq_none_iff {inside : Text} : read? ('{' :: '{' :: inside) = none ↔
    Placeholder.read? ('{' :: '{' :: inside) = none ∧ ¬ ['}', '}'] <:+: inside := by
  cases hread : Placeholder.read? ('{' :: '{' :: inside) with
  | some found => simp [read?, hread]
  | none => simp [read?, hread, Text.cutAt_eq_none_iff]

theorem written_of_function {t : Text} {o : Occurrence} {i : Invocation} (h : read? t = some o)
    (hi : o.meaning = .function i) : i.written = o.written := by
  cases read?_eq_some_iff.mp h with
  | inl hfits =>
      obtain ⟨p, _, _, rfl⟩ := hfits
      simp only [ofPlaceholder] at hi ⊢
      split at hi
      · next hconv =>
        obtain rfl := Meaning.function.inj hi
        exact Placeholder.written_of_invocation_eq_ok hconv
      · contradiction
  | inr hcloses =>
      obtain ⟨_, _, body, _, _, _, rfl⟩ := hcloses
      simp only [ofBody] at hi
      split at hi <;> contradiction

end Occurrence

namespace Segment

/-- The steps of a scan that has reached byte `start`: an occurrence is taken whole, and a character
that begins none joins the literal text. -/
inductive Scans : Nat → Text → List Segment → Prop where
  | done (start : Nat) : Scans start [] []
  | occurrence {start : Nat} {o : Occurrence} {rest : Text} {segments : List Segment} :
      Occurrence.read? (o.written ++ rest) = some o →
      Scans (start + o.written.byteSize) rest segments →
      Scans start (o.written ++ rest) (.placeholder start o :: segments)
  | char {start : Nat} {c : Char} {t : Text} {segments : List Segment} :
      Occurrence.read? (c :: t) = none → Scans (start + c.utf8Size) t segments →
      Scans start (c :: t) (consChar c segments)

theorem scans_ofPieces (start : Nat) (t : Text) :
    Scans start t (ofPieces start (t.pieces Occurrence.read? Occurrence.written)) := by
  -- An occurrence takes many characters at once, so the induction is on the length.
  induction hlen : t.length using Nat.strong_induction_on generalizing start t with
  | _ n ih =>
    cases t with
    | nil => exact .done start
    | cons c t =>
        cases hread : Occurrence.read? (c :: t) with
        | none =>
            rw [Text.pieces_char hread]
            exact .char hread (ih t.length (by simp [← hlen]) _ t rfl)
        | some o =>
            obtain ⟨hne, rest, ht⟩ := Occurrence.read?_eq_some hread
            have hpos := List.length_pos_iff.mpr hne
            have hshort : rest.length < n := by
              rw [← hlen, ht, List.length_append]
              omega
            rw [ht] at hread ⊢
            rw [Text.pieces_token hread hne]
            exact .occurrence hread (ih rest.length hshort _ rest rfl)

theorem scans_scan (document : Text) : Scans 0 document (scan document) :=
  scans_ofPieces 0 document

theorem consChar_eq_cons {c : Char} {segments tail : List Segment} {segment : Segment}
    (h : consChar c segments = segment :: tail) :
    ∃ u, segment = .literal (c :: u) ∧ (segments = .literal u :: tail ∨
      u = [] ∧ segments = tail ∧ ∀ v rest, segments ≠ .literal v :: rest) := by
  unfold consChar at h
  split at h
  · next u rest =>
    obtain ⟨rfl, rfl⟩ := List.cons.inj h
    exact ⟨u, rfl, .inl rfl⟩
  · next hnext =>
    obtain ⟨rfl, rfl⟩ := List.cons.inj h
    exact ⟨[], rfl, .inr ⟨rfl, rfl, hnext⟩⟩

theorem Scans.flatMap_text {start : Nat} {t : Text} {segments : List Segment}
    (h : Scans start t segments) : segments.flatMap text = t := by
  induction h with
  | done => rfl
  | occurrence _ _ ih => rw [List.flatMap_cons, ih, text]
  | char _ _ ih => rw [text_consChar, ih]

/-- From the end of any segment on, the segments are those of a scan that has reached it. -/
theorem Scans.append {start : Nat} {t : Text} {front back : List Segment}
    (h : Scans start t (front ++ back)) :
    Scans (start + Text.byteSize (front.flatMap text)) (back.flatMap text) back := by
  generalize hall : front ++ back = segments at h
  induction h generalizing front with
  | done start =>
      obtain ⟨rfl, rfl⟩ := List.append_eq_nil_iff.mp hall
      exact .done start
  | @occurrence start o rest segments hread hrest ih =>
      cases front with
      | nil =>
          obtain rfl : back = .placeholder start o :: segments := hall
          have hself := Scans.occurrence hread hrest
          rwa [← hself.flatMap_text] at hself
      | cons segment front =>
          obtain ⟨rfl, rfl⟩ := List.cons.inj hall
          rw [List.flatMap_cons, Text.byteSize_append, ← Nat.add_assoc]
          exact ih rfl
  | @char start c t segments hread hrest ih =>
      cases front with
      | nil =>
          obtain rfl : back = consChar c segments := hall
          have hself := Scans.char hread hrest
          rwa [← hself.flatMap_text] at hself
      | cons segment front =>
          obtain ⟨u, rfl, hjoin⟩ := consChar_eq_cons hall.symm
          rw [List.flatMap_cons, text, List.cons_append, Text.byteSize_cons, ← Nat.add_assoc]
          cases hjoin with
          | inl hliteral => exact @ih (.literal u :: front) hliteral.symm
          | inr halone =>
              obtain ⟨rfl, rfl, _⟩ := halone
              exact ih rfl

theorem Scans.placeholder_cons {start n : Nat} {t : Text} {o : Occurrence}
    {segments : List Segment} (h : Scans start t (.placeholder n o :: segments)) :
    n = start ∧ Occurrence.read? t = some o := by
  generalize hall : .placeholder n o :: segments = all at h
  cases h with
  | done => contradiction
  | occurrence hread _ =>
      obtain ⟨hhead, _⟩ := List.cons.inj hall
      obtain ⟨rfl, rfl⟩ := Segment.placeholder.inj hhead
      exact ⟨rfl, hread⟩
  | char =>
      obtain ⟨u, hliteral, _⟩ := consChar_eq_cons hall.symm
      contradiction

theorem Scans.literal_cons {start : Nat} {t u : Text} {segments : List Segment}
    (h : Scans start t (.literal u :: segments)) :
    u ≠ [] ∧ (∀ v rest, segments ≠ .literal v :: rest) ∧
      ∀ front s, u = front ++ s → s ≠ [] →
        Occurrence.read? (s ++ segments.flatMap text) = none := by
  generalize hall : .literal u :: segments = all at h
  induction h generalizing u with
  | done => contradiction
  | occurrence =>
      obtain ⟨hliteral, _⟩ := List.cons.inj hall
      contradiction
  | @char start c t rest hread hrest ih =>
      have htext := (Scans.char hread hrest).flatMap_text
      rw [← hall, List.flatMap_cons, text] at htext
      obtain ⟨v, hhead, hjoin⟩ := consChar_eq_cons hall.symm
      obtain rfl := Segment.literal.inj hhead
      refine ⟨List.cons_ne_nil _ _, ?_, ?_⟩
      · cases hjoin with
        | inl hliteral => exact (ih hliteral.symm).2.1
        | inr halone =>
            obtain ⟨_, rfl, hnext⟩ := halone
            exact hnext
      · intro front s hu hs
        cases front with
        | nil =>
            obtain rfl : c :: v = s := hu
            rwa [htext]
        | cons d front =>
            obtain ⟨_, hv⟩ := List.cons.inj hu
            cases hjoin with
            | inl hliteral => exact (ih hliteral.symm).2.2 front s hv hs
            | inr halone =>
                obtain ⟨rfl, _⟩ := halone
                exact absurd (List.append_eq_nil_iff.mp hv.symm).2 hs

theorem scan_eq_append {t : Text} {front back : List Segment} (h : scan t = front ++ back) :
    t = front.flatMap text ++ back.flatMap text ∧
      Scans (Text.byteSize (front.flatMap text)) (back.flatMap text) back := by
  have hscans := scans_scan t
  rw [h] at hscans
  refine ⟨?_, by simpa using hscans.append⟩
  rw [← List.flatMap_append]
  exact hscans.flatMap_text.symm

theorem read?_of_mem_scan {t : Text} {start : Nat} {o : Occurrence}
    (h : .placeholder start o ∈ scan t) :
    ∃ s, t.fromByte? start = some s ∧ Occurrence.read? s = some o := by
  obtain ⟨before, after, hscan⟩ := List.append_of_mem h
  obtain ⟨ht, hscans⟩ := scan_eq_append hscan
  obtain ⟨hstart, hread⟩ := hscans.placeholder_cons
  exact ⟨_, Text.fromByte?_eq_some_iff.mpr ⟨_, ht, hstart.symm⟩, hread⟩

/-- Placeholders of a document differ in their offsets. -/
theorem eq_of_mem_scan {t : Text} {start : Nat} {o o' : Occurrence}
    (h : .placeholder start o ∈ scan t) (h' : .placeholder start o' ∈ scan t) : o = o' := by
  obtain ⟨s, hs, hread⟩ := read?_of_mem_scan h
  obtain ⟨s', hs', hread'⟩ := read?_of_mem_scan h'
  obtain rfl := Option.some.inj (hs.symm.trans hs')
  exact Option.some.inj (hread.symm.trans hread')

/-- The segments of a document are a partition of it: together they are its text, each placeholder
is the slice of the document at its span and begins where the segments before it end, no literal is
empty and no two are adjacent. A placeholder is what begins at its offset, and nothing begins at a
character of a literal. -/
theorem scan_partition (t : Text) :
    (scan t).flatMap text = t ∧
    (∀ before start o after, scan t = before ++ .placeholder start o :: after →
      start = Text.byteSize (before.flatMap text) ∧
      t.slice? (span start o).1 (span start o).2 = some o.written ∧
      Occurrence.read? (o.written ++ after.flatMap text) = some o ∧
      ∀ i, o.meaning = .function i → i.written = o.written) ∧
    ∀ before u after, scan t = before ++ .literal u :: after →
      u ≠ [] ∧ (∀ v rest, after ≠ .literal v :: rest) ∧
        ∀ front s, u = front ++ s → s ≠ [] →
          Occurrence.read? (s ++ after.flatMap text) = none := by
  refine ⟨flatMap_text_scan t, ?_, ?_⟩
  · intro before start o after hscan
    obtain ⟨ht, hscans⟩ := scan_eq_append hscan
    obtain ⟨rfl, hread⟩ := hscans.placeholder_cons
    rw [List.flatMap_cons, text] at ht hread
    refine ⟨rfl, ?_, hread, fun i hi => Occurrence.written_of_function hread hi⟩
    rw [← List.append_assoc] at ht
    exact Text.slice?_eq_some_iff.mpr ⟨_, _, ht, rfl, Text.byteSize_append _ _⟩
  · intro before u after hscan
    exact (scan_eq_append hscan).2.literal_cons

/-- The first character takes two bytes, and the opening at byte 10 begins nothing. -/
theorem scan_partition_two_byte :
    scan "é{{A()}}b{{}c}".toList = [.literal "é".toList,
      .placeholder 2 (.ofPlaceholder ⟨"A".toList, none, [], none⟩), .literal "b{{}c}".toList] ∧
    Text.slice? 2 9 "é{{A()}}b{{}c}".toList = some "{{A()}}".toList := by
  have hscan : scan "é{{A()}}b{{}c}".toList = [.literal "é".toList,
      .placeholder 2 (.ofPlaceholder ⟨"A".toList, none, [], none⟩),
      .literal "b{{}c}".toList] := by decide
  have hspan : span 2 (.ofPlaceholder ⟨"A".toList, none, [], none⟩) = (2, 9) := by decide
  have hwritten : (Occurrence.ofPlaceholder ⟨"A".toList, none, [], none⟩).written =
      "{{A()}}".toList := by decide
  obtain ⟨_, hslice, _⟩ := (scan_partition "é{{A()}}b{{}c}".toList).2.1 [.literal "é".toList] 2
    (.ofPlaceholder ⟨"A".toList, none, [], none⟩) [.literal "b{{}c}".toList] hscan
  rw [hspan, hwritten] at hslice
  exact ⟨hscan, hslice⟩

end Segment
end Placeholders
