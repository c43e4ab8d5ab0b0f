import Placeholders.Proofs.Document.Locality

/-!
A resolved document is the source with a result in the place of every placeholder. The results are
those of the placeholders of the source, in order, and what they hold is not looked at again.
-/

namespace Placeholders

/-- The text from byte `start` of a document on with other text at some of its bytes. The spans are
bytes of the document; nothing if they overlap, are out of order or divide a character. -/
def Text.splice? (start : Nat) : List ((Nat × Nat) × Text) → Text → Option Text
  | [], t => some t
  | ((first, last), value) :: edits, t =>
    if start ≤ first ∧ first ≤ last then
      (t.splitAtByte? (first - start)).bind fun (kept, rest) =>
        (rest.splitAtByte? (last - first)).bind fun (_, rest) =>
          (splice? last edits rest).map fun u => kept ++ value ++ u
    else none

namespace Text

theorem splitAtByte?_cons (c : Char) (n : Nat) (t : Text) :
    splitAtByte? (c.utf8Size + n) (c :: t) =
      (splitAtByte? n t).map fun (before, rest) => (c :: before, rest) := by
  have hc := c.utf8Size_pos
  obtain ⟨k, hk⟩ : ∃ k, c.utf8Size + n = k + 1 := Nat.exists_eq_add_one.mpr (by omega)
  have hn : k + 1 - c.utf8Size = n := by omega
  rw [hk, splitAtByte?, if_pos (by omega), hn]

theorem splice?_kept {start : Nat} {c : Char} {edits : List ((Nat × Nat) × Text)}
    (h : ∀ e ∈ edits, start + c.utf8Size ≤ e.1.1) (t : Text) :
    splice? start edits (c :: t) = (splice? (start + c.utf8Size) edits t).map (c :: ·) := by
  cases edits with
  | nil => rfl
  | cons edit edits =>
      obtain ⟨⟨first, last⟩, value⟩ := edit
      have hfirst : start + c.utf8Size ≤ first := h _ (List.mem_cons_self ..)
      have hoffset : first - start = c.utf8Size + (first - (start + c.utf8Size)) := by omega
      simp only [splice?, hoffset, splitAtByte?_cons]
      by_cases hlast : first ≤ last
      · rw [if_pos ⟨by omega, hlast⟩, if_pos ⟨hfirst, hlast⟩]
        cases splitAtByte? (first - (start + c.utf8Size)) t with
        | none => rfl
        | some cut =>
            simp only [Option.map_some, Option.bind_some]
            cases splitAtByte? (last - first) cut.2 with
            | none => rfl
            | some cut' =>
                simp only [Option.bind_some, Option.map_map]
                rfl
      · rw [if_neg fun h => hlast h.2, if_neg fun h => hlast h.2]
        rfl

theorem splice?_replaced (start : Nat) (old value t : Text) (edits : List ((Nat × Nat) × Text)) :
    splice? start (((start, start + old.byteSize), value) :: edits) (old ++ t) =
      (splice? (start + old.byteSize) edits t).map (value ++ ·) := by
  have hold := splitAtByte?_append old t
  have hfront := splitAtByte?_append [] (old ++ t)
  rw [List.nil_append, byteSize_nil] at hfront
  rw [splice?, if_pos ⟨Nat.le_refl _, Nat.le_add_right ..⟩, Nat.sub_self, hfront, Option.bind_some]
  simp only [Nat.add_sub_cancel_left, hold, Option.bind_some, List.nil_append]

end Text

namespace Segment

/-- The placeholders among segments, with their offsets. -/
def occurrences (segments : List Segment) : List (Nat × Occurrence) :=
  segments.filterMap fun
    | literal _ => none
    | placeholder start o => some (start, o)

/-- The bytes of a document that its placeholders cover, in order. -/
def spans (segments : List Segment) : List (Nat × Nat) :=
  (occurrences segments).map fun (start, o) => span start o

end Segment

namespace ResolvedPart

/-- The segments of a document with a result for each placeholder. -/
def fill : List Segment → List (Except DocumentError Text) → List ResolvedPart
  | .literal t :: segments, results => .literal t :: fill segments results
  | .placeholder start o :: segments, result :: results =>
    .placeholder start o.written result :: fill segments results
  | _, _ => []

/-- What stands in a resolved document for a placeholder with this result. -/
def resultText : Except DocumentError Text → Text
  | .ok value => value
  | .error e => e.message

def failed? : (Nat × Nat) × Except DocumentError Text → Option (Nat × Nat)
  | (span, .error _) => some span
  | (_, .ok _) => none

theorem fill_consChar (c : Char) (segments : List Segment)
    (results : List (Except DocumentError Text)) :
    render (fill (Segment.consChar c segments) results) = c :: render (fill segments results) := by
  cases segments with
  | nil => rfl
  | cons segment segments => cases segment <;> rfl

end ResolvedPart

namespace Segment

theorem occurrences_consChar (c : Char) (segments : List Segment) :
    occurrences (consChar c segments) = occurrences segments := by
  cases segments with
  | nil => rfl
  | cons segment segments => cases segment <;> rfl

theorem spans_placeholder (start : Nat) (o : Occurrence) (segments : List Segment) :
    spans (.placeholder start o :: segments) = span start o :: spans segments := rfl

theorem Scans.start_le_of_mem_spans {start : Nat} {t : Text} {segments : List Segment}
    (h : Scans start t segments) {s : Nat × Nat} (hs : s ∈ spans segments) : start ≤ s.1 := by
  obtain ⟨⟨n, o⟩, ho, rfl⟩ := List.mem_map.mp hs
  obtain ⟨segment, hsegment, hsome⟩ := List.mem_filterMap.mp ho
  cases segment with
  | literal u => contradiction
  | placeholder n' o' =>
      obtain ⟨rfl, rfl⟩ : n' = n ∧ o' = o := by simpa using hsome
      exact h.start_le hsegment

theorem Scans.spans_pairwise {start : Nat} {t : Text} {segments : List Segment}
    (h : Scans start t segments) :
    (spans segments).Pairwise fun a b => a.1 < a.2 ∧ a.2 ≤ b.1 := by
  induction h with
  | done => exact .nil
  | @occurrence start o rest segments hread hrest ih =>
      have hwritten := Text.byteSize_pos (Occurrence.read?_eq_some hread).1
      rw [spans_placeholder]
      refine .cons (fun s hs => ⟨?_, hrest.start_le_of_mem_spans hs⟩) ih
      exact Nat.lt_add_of_pos_right hwritten
  | char _ _ ih =>
      rw [spans, occurrences_consChar]
      exact ih

/-- The text of a resolved document is the source, spliced. -/
theorem Scans.splice?_eq {start : Nat} {t : Text} {segments : List Segment}
    (h : Scans start t segments) {results : List (Except DocumentError Text)}
    (hlength : results.length = (occurrences segments).length) :
    t.splice? start ((spans segments).zip (results.map ResolvedPart.resultText)) =
      some (ResolvedPart.render (ResolvedPart.fill segments results)) := by
  induction h generalizing results with
  | done => rfl
  | @occurrence start o rest segments hread hrest ih =>
      cases results with
      | nil => contradiction
      | cons result results =>
          have hrest := ih (Nat.succ.inj hlength)
          rw [spans_placeholder, List.map_cons, List.zip_cons_cons, span, Text.splice?_replaced,
            hrest]
          cases result <;> rfl
  | @char start c t segments hread hrest ih =>
      rw [occurrences_consChar] at hlength
      rw [spans, occurrences_consChar, ← spans, ResolvedPart.fill_consChar, Text.splice?_kept,
        ih hlength]
      · rfl
      · intro e he
        exact hrest.start_le_of_mem_spans (List.of_mem_zip he).1

end Segment

namespace ResolvedPart

theorem failedSpans_fill (segments : List Segment) (results : List (Except DocumentError Text)) :
    failedSpans (fill segments results) =
      ((Segment.spans segments).zip results).filterMap failed? := by
  induction segments generalizing results with
  | nil => rfl
  | cons segment segments ih =>
      cases segment with
      | literal t => exact ih results
      | placeholder start o =>
          cases results with
          | nil => rfl
          | cons result results =>
              rw [Segment.spans_placeholder, List.zip_cons_cons, List.filterMap_cons, ← ih]
              cases result <;> rfl

theorem failed_sublist (spans : List (Nat × Nat)) (results : List (Except DocumentError Text)) :
    ((spans.zip results).filterMap failed?).Sublist spans := by
  induction spans generalizing results with
  | nil => exact .slnil
  | cons s spans ih =>
      cases results with
      | nil => exact List.nil_sublist _
      | cons result results =>
          rw [List.zip_cons_cons, List.filterMap_cons]
          cases result with
          | ok value => exact .cons _ (ih results)
          | error e => exact .cons_cons _ (ih results)

end ResolvedPart

namespace Resolver

section
variable {m : Type → Type} [Monad m] (r : Resolver m)

/-- The results of the placeholders of a document, one after another. -/
def results (document : Text) : m (List (Except DocumentError Text)) :=
  (Segment.occurrences (Segment.scan document)).mapM fun (_, o) => r.resolveOccurrence o

variable [LawfulMonad m]

theorem mapM_resolveSegment (segments : List Segment) :
    segments.mapM r.resolveSegment = ResolvedPart.fill segments <$>
      (Segment.occurrences segments).mapM fun (_, o) => r.resolveOccurrence o := by
  induction segments with
  | nil => simp [Segment.occurrences, ResolvedPart.fill]
  | cons segment segments ih =>
      cases segment with
      | literal t =>
          rw [List.mapM_cons, ih]
          simp [resolveSegment, Segment.occurrences, ResolvedPart.fill]
      | placeholder start o =>
          rw [List.mapM_cons, ih]
          simp [resolveSegment, Segment.occurrences, ResolvedPart.fill]

theorem resolve_eq_fill (document : Text) :
    r.resolve document = ResolvedPart.fill (Segment.scan document) <$> r.results document :=
  r.mapM_resolveSegment _

end

theorem map_mapM_congr {m : Type → Type} [Monad m] [LawfulMonad m] {α β γ : Type} (g : α → m β)
    (xs : List α) {f f' : List β → γ} (h : ∀ ys, ys.length = xs.length → f ys = f' ys) :
    f <$> xs.mapM g = f' <$> xs.mapM g := by
  induction xs generalizing f f' with
  | nil => simp [h [] rfl]
  | cons x xs ih =>
      rw [List.mapM_cons]
      simp only [map_bind, map_pure]
      congr 1
      funext y
      simp only [bind_pure_comp]
      exact ih fun ys hys => h (y :: ys) (congrArg Nat.succ hys)

/-- Only a reference to the one column sees that two sources of test data differ in it. -/
theorem resolveSegment_data (r : Resolver (ReaderM Instant)) {data : ColumnValues} {column : Text}
    (hdata : ∀ c, c ≠ column → data c = r.data c) (segment : Segment)
    (hsegment : ∀ start o, segment = .placeholder start o → o.meaning ≠ .testData (some column)) :
    { r with data }.resolveSegment segment = r.resolveSegment segment := by
  cases segment with
  | literal t => rfl
  | placeholder start o =>
      have ho := hsegment start o rfl
      simp only [resolveSegment, resolveOccurrence]
      cases hmeaning : o.meaning with
      | function i => rfl
      | malformed e => rfl
      | testData c =>
          cases c with
          | none => rfl
          | some c =>
              have hne : c ≠ column := by
                intro heq
                exact ho (by rw [hmeaning, heq])
              simp only [ColumnValues.answer, hdata c hne]

/-- Rendering is splicing. What the placeholders of a document give, one after another, determines
the resolved document: its text is the source with the bytes of each placeholder replaced by its
value or its error message, and its failures are the spans with errors, in order and without
overlap. And when the clock stands still, two sources of test data that agree in all columns but one
give the same document except at references to that column. -/
theorem resolve_splices {m : Type → Type} [Monad m] [LawfulMonad m] (r : Resolver m)
    (document : Text) :
    r.resolve document = ResolvedPart.fill (Segment.scan document) <$> r.results document ∧
    (fun parts => some (ResolvedPart.render parts)) <$> r.resolve document =
      (fun results => document.splice? 0
        ((Segment.spans (Segment.scan document)).zip (results.map ResolvedPart.resultText))) <$>
          r.results document ∧
    ResolvedPart.failedSpans <$> r.resolve document =
      (fun results => ((Segment.spans (Segment.scan document)).zip results).filterMap
        ResolvedPart.failed?) <$> r.results document ∧
    (∀ results, (((Segment.spans (Segment.scan document)).zip results).filterMap
      ResolvedPart.failed?).Pairwise fun a b => a.1 < a.2 ∧ a.2 ≤ b.1) ∧
    ∀ (r : Resolver (ReaderM Instant)) (now : Instant) (data : ColumnValues) (column : Text),
      (∀ c, c ≠ column → data c = r.data c) → ∀ k : Nat,
        (runAt now ({ r with data }.resolve document))[k]? =
            (runAt now (r.resolve document))[k]? ∨
          ∃ start o, (Segment.scan document)[k]? = some (.placeholder start o) ∧
            o.meaning = .testData (some column) := by
  refine ⟨r.resolve_eq_fill document, ?_, ?_, ?_, ?_⟩
  · rw [resolve_eq_fill, Functor.map_map]
    apply map_mapM_congr
    intro results hlength
    exact ((Segment.scans_scan document).splice?_eq hlength).symm
  · rw [resolve_eq_fill, Functor.map_map]
    simp only [ResolvedPart.failedSpans_fill]
  · intro results
    exact (Segment.scans_scan document).spans_pairwise.sublist
      (ResolvedPart.failed_sublist _ results)
  · intro r now data column hdata k
    simp only [runAt_resolve, List.getElem?_map]
    cases hk : (Segment.scan document)[k]? with
    | none => exact .inl rfl
    | some segment =>
        by_cases href : ∃ start o, segment = .placeholder start o ∧
            o.meaning = .testData (some column)
        · obtain ⟨start, o, rfl, ho⟩ := href
          exact .inr ⟨start, o, rfl, ho⟩
        · refine .inl ?_
          rw [Option.map_some, Option.map_some, r.resolveSegment_data hdata segment]
          intro start o hsegment ho
          exact href ⟨start, o, hsegment, ho⟩

/-- The value of the first column looks like a placeholder, and only the second column differs. -/
theorem resolve_splices_of_columns :
    (∀ c, c ≠ ['B'] → List.lookup c [(['A'], "{{A()}}".toList)] =
      List.lookup c [(['B'], ['2']), (['A'], "{{A()}}".toList)]) ∧
    Text.splice? 0 [((2, 16), "{{A()}}".toList), ((16, 30), ['2']),
        ((31, 36), "no match found for '{{A}}'".toList)]
        "é{{TestData.A}}{{TestData.B}}-{{A}}".toList =
      some (ResolvedPart.render (runAt ⟨⟨2026, 2, 24⟩, 13, 7, 9, 0⟩ (resolve
        ⟨.standard, [], .none, fun c => List.lookup c [(['B'], ['2']), (['A'], "{{A()}}".toList)]⟩
        "é{{TestData.A}}{{TestData.B}}-{{A}}".toList))) ∧
    ((runAt ⟨⟨2026, 2, 24⟩, 13, 7, 9, 0⟩ (resolve
        ⟨.standard, [], .none, fun c => List.lookup c [(['A'], "{{A()}}".toList)]⟩
        "é{{TestData.A}}{{TestData.B}}-{{A}}".toList))[1]? =
      (runAt ⟨⟨2026, 2, 24⟩, 13, 7, 9, 0⟩ (resolve
        ⟨.standard, [], .none, fun c => List.lookup c [(['B'], ['2']), (['A'], "{{A()}}".toList)]⟩
        "é{{TestData.A}}{{TestData.B}}-{{A}}".toList))[1]?) := by
  have hdata : ∀ c, c ≠ ['B'] → List.lookup c [(['A'], "{{A()}}".toList)] =
      List.lookup c [(['B'], ['2']), (['A'], "{{A()}}".toList)] := by
    intro c hc
    have hb : (c == ['B']) = false := beq_false_of_ne hc
    simp only [List.lookup_cons, hb]
  obtain ⟨_, htext, _, _, hcolumns⟩ := resolve_splices (m := ReaderM Instant)
    ⟨.standard, [], .none, fun c => List.lookup c [(['B'], ['2']), (['A'], "{{A()}}".toList)]⟩
    "é{{TestData.A}}{{TestData.B}}-{{A}}".toList
  refine ⟨hdata, ?_, ?_⟩
  · have hnow := congrArg (runAt ⟨⟨2026, 2, 24⟩, 13, 7, 9, 0⟩) htext
    refine Eq.trans ?_ hnow.symm
    decide +kernel
  · cases hcolumns ⟨.standard, [], .none,
      fun c => List.lookup c [(['B'], ['2']), (['A'], "{{A()}}".toList)]⟩
      ⟨⟨2026, 2, 24⟩, 13, 7, 9, 0⟩ _ _ hdata 1 with
    | inl hsame => exact hsame
    | inr href =>
        obtain ⟨start, o, hsegment, hmeaning⟩ := href
        have hscan : (Segment.scan "é{{TestData.A}}{{TestData.B}}-{{A}}".toList)[1]? =
            some (.placeholder 2 (.ofBody "TestData.A".toList)) := by decide
        rw [hscan] at hsegment
        obtain ⟨_, rfl⟩ := Segment.placeholder.inj (Option.some.inj hsegment)
        exact absurd hmeaning (by decide)

end Resolver
end Placeholders
