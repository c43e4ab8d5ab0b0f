import Mathlib.Control.Monad.Basic
import Placeholders.Document
import Placeholders.Proofs.Segment.Verdict

/-!
The outcome of a placeholder in a document is that of its own text alone. What stands around it, the
other placeholders and the test data have no part in it.
-/

namespace Placeholders

theorem Occurrence.eq_of_written_eq {t t' : Text} {o o' : Occurrence} (h : read? t = some o)
    (hform : o.meaning.HasForm) (h' : read? t' = some o') (hwritten : o'.written = o.written) :
    o' = o := by
  obtain ⟨p, rest, hread, rfl⟩ := exists_of_hasForm h hform
  obtain ⟨_, rest', rfl⟩ := read?_eq_some h'
  have hagain : read? (o'.written ++ rest') = some (ofPlaceholder p) := by
    rw [hwritten, written_ofPlaceholder]
    exact read?_eq_some_iff.mpr (.inl ⟨p, rest', Placeholder.read?_written hread rest', rfl⟩)
  exact Option.some.inj (h'.symm.trans hagain)

namespace Resolver

/-- What an action gives that sees the same instant whenever it asks for the time. -/
def runAt {α : Type} (now : Instant) (action : ReaderM Instant α) : α := Id.run (action.run now)

theorem resolveOccurrence_eq_evaluateText {m : Type → Type} [Monad m] [LawfulMonad m]
    (r : Resolver m) {t : Text} {o : Occurrence} (h : Occurrence.read? t = some o)
    (hform : o.meaning.HasForm) :
    r.resolveOccurrence o =
      Except.mapError .resolution <$> r.registry.evaluateText r.identity r.fallback o.written := by
  obtain ⟨p, rest, hread, rfl⟩ := Occurrence.exists_of_hasForm h hform
  rw [Occurrence.written_ofPlaceholder, Registry.evaluateText, Placeholder.parse_written hread]
  simp only [resolveOccurrence, Occurrence.ofPlaceholder]
  cases p.invocation with
  | error e => simp only [map_pure, Except.mapError]
  | ok i =>
      simp only [map_eq_pure_bind]
      congr 1
      funext result
      cases result with
      | ok value => rfl
      | error e => rfl

theorem runAt_resolve (r : Resolver (ReaderM Instant)) (now : Instant) (t : Text) :
    runAt now (r.resolve t) = (Segment.scan t).map fun s => runAt now (r.resolveSegment s) := by
  rw [resolve]
  induction Segment.scan t with
  | nil => rfl
  | cons s segments ih =>
      rw [List.mapM_cons, List.map_cons, ← ih]
      rfl

theorem getElem?_runAt_resolve (r : Resolver (ReaderM Instant)) (now : Instant) {t : Text}
    {before after : List Segment} {start : Nat} {o : Occurrence}
    (hscan : Segment.scan t = before ++ .placeholder start o :: after)
    (hform : o.meaning.HasForm) :
    (runAt now (r.resolve t))[before.length]? = some (.placeholder start o.written
      ((runAt now (r.registry.evaluateText r.identity r.fallback o.written)).mapError
        .resolution)) := by
  have hmem : .placeholder start o ∈ Segment.scan t := by simp [hscan]
  obtain ⟨s, _, hread⟩ := Segment.read?_of_mem_scan hmem
  rw [runAt_resolve, hscan, List.map_append, List.map_cons,
    List.getElem?_append_right (by simp)]
  simp only [List.length_map, Nat.sub_self, List.getElem?_cons_zero, resolveSegment,
    r.resolveOccurrence_eq_evaluateText hread hform]
  rfl

/-- When the clock stands still, a placeholder that has the form of one becomes in a document what
its text becomes by itself. So it does wherever the same text is a placeholder, in this document or
another one, and whatever the test data are. -/
theorem outcome_local (r : Resolver (ReaderM Instant)) (now : Instant) {t : Text}
    {before after : List Segment} {start : Nat} {o : Occurrence}
    (hscan : Segment.scan t = before ++ .placeholder start o :: after)
    (hform : o.meaning.HasForm) :
    (runAt now (r.resolve t))[before.length]? = some (.placeholder start o.written
      ((runAt now (r.registry.evaluateText r.identity r.fallback o.written)).mapError
        .resolution)) ∧
    ∀ (data : ColumnValues) (t' : Text) (before' after' : List Segment) (start' : Nat)
      (o' : Occurrence), Segment.scan t' = before' ++ .placeholder start' o' :: after' →
      o'.written = o.written →
      (runAt now ({ r with data }.resolve t'))[before'.length]? =
        some (.placeholder start' o.written
          ((runAt now (r.registry.evaluateText r.identity r.fallback o.written)).mapError
            .resolution)) := by
  refine ⟨r.getElem?_runAt_resolve now hscan hform, ?_⟩
  intro data t' before' after' start' o' hscan' hwritten
  have hmem : .placeholder start o ∈ Segment.scan t := by simp [hscan]
  have hmem' : .placeholder start' o' ∈ Segment.scan t' := by simp [hscan']
  obtain ⟨s, _, hread⟩ := Segment.read?_of_mem_scan hmem
  obtain ⟨s', _, hread'⟩ := Segment.read?_of_mem_scan hmem'
  obtain rfl := Occurrence.eq_of_written_eq hread hform hread' hwritten
  exact getElem?_runAt_resolve { r with data } now hscan' hform

/-- The same text twice in a document, behind a reference to test data. -/
theorem outcome_local_repeated :
    Segment.scan "{{TestData.A}}{{Fenix.TodayShiftDay(5)}}{{Fenix.TodayShiftDay(5)}}".toList =
      [.placeholder 0 (.ofBody "TestData.A".toList),
        .placeholder 14 (.ofPlaceholder ⟨"Fenix.TodayShiftDay".toList, none, ['5'], none⟩),
        .placeholder 40 (.ofPlaceholder ⟨"Fenix.TodayShiftDay".toList, none, ['5'], none⟩)] ∧
    (Occurrence.ofPlaceholder ⟨"Fenix.TodayShiftDay".toList, none, ['5'], none⟩).meaning.HasForm ∧
    ∀ data : ColumnValues, (runAt ⟨⟨2026, 2, 24⟩, 13, 7, 9, 0⟩ (resolve ⟨.standard, [], .none, data⟩
      "{{TestData.A}}{{Fenix.TodayShiftDay(5)}}{{Fenix.TodayShiftDay(5)}}".toList))[2]? =
        some (.placeholder 40 "{{Fenix.TodayShiftDay(5)}}".toList (.ok "2026-03-01".toList)) := by
  have hscan : Segment.scan
      "{{TestData.A}}{{Fenix.TodayShiftDay(5)}}{{Fenix.TodayShiftDay(5)}}".toList =
      [.placeholder 0 (.ofBody "TestData.A".toList),
        .placeholder 14 (.ofPlaceholder ⟨"Fenix.TodayShiftDay".toList, none, ['5'], none⟩),
        .placeholder 40 (.ofPlaceholder ⟨"Fenix.TodayShiftDay".toList, none, ['5'], none⟩)] := by
    decide
  have hform : (Occurrence.ofPlaceholder
      ⟨"Fenix.TodayShiftDay".toList, none, ['5'], none⟩).meaning.HasForm := trivial
  have houtcome : runAt ⟨⟨2026, 2, 24⟩, 13, 7, 9, 0⟩ (Registry.evaluateText .standard [] .none
      "{{Fenix.TodayShiftDay(5)}}".toList) = .ok "2026-03-01".toList := by decide +kernel
  refine ⟨hscan, hform, fun data => ?_⟩
  have hsplit : Segment.scan
      "{{TestData.A}}{{Fenix.TodayShiftDay(5)}}{{Fenix.TodayShiftDay(5)}}".toList =
      [.placeholder 0 (.ofBody "TestData.A".toList)] ++
        .placeholder 14 (.ofPlaceholder ⟨"Fenix.TodayShiftDay".toList, none, ['5'], none⟩) :: _ :=
    hscan
  have hlocal := (outcome_local ⟨.standard, [], .none, data⟩ ⟨⟨2026, 2, 24⟩, 13, 7, 9, 0⟩
    hsplit hform).2 data _
      [.placeholder 0 (.ofBody "TestData.A".toList),
        .placeholder 14 (.ofPlaceholder ⟨"Fenix.TodayShiftDay".toList, none, ['5'], none⟩)] []
      40 _ hscan rfl
  rw [show (Occurrence.ofPlaceholder ⟨"Fenix.TodayShiftDay".toList, none, ['5'], none⟩).written =
    "{{Fenix.TodayShiftDay(5)}}".toList by decide, houtcome] at hlocal
  exact hlocal

end Resolver
end Placeholders
