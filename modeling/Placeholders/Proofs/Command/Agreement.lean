import Placeholders.Command.Run
import Placeholders.Proofs.Calendar.Clock
import Placeholders.Proofs.Registry.Routing
import Placeholders.Proofs.Segment.Scan

/-!
What a check finds and what a rendering fails at. A check looks at the placeholders of a document
and runs nothing. Each of its findings is about a placeholder that has no value, whatever the clock
shows and whatever the test data are.
-/

namespace Placeholders

namespace Finding

variable {m : Type → Type} (registry : Registry m)

/-- A registered function is no cause for complaint. -/
theorem contains_of_complaint {registry : Registry m} {strict : Bool} {i : Invocation}
    {found : Text × Option Text × Bool}
    (h : complaint? registry strict (.function i) = some found) :
    registry.contains i.function = false := by
  cases hcontains : registry.contains i.function with
  | false => rfl
  | true =>
      have hnone : complaint? registry strict (.function i) = none := if_pos hcontains
      rw [hnone] at h
      contradiction

theorem mem_ofDocument_iff {strict : Bool} {file document : Text} {f : Finding} :
    f ∈ ofDocument registry strict file document ↔
      ∃ o message help isError, .placeholder f.start o ∈ Segment.scan document ∧
        complaint? registry strict o.meaning = some (message, help, isError) ∧
        f = ⟨file, f.start, f.start + o.written.byteSize, o.written, message, help, isError⟩ := by
  rw [ofDocument, List.mem_filterMap]
  constructor
  · rintro ⟨segment, hmem, hsome⟩
    cases segment with
    | literal t => contradiction
    | placeholder start o =>
        obtain ⟨⟨message, help, isError⟩, hcomplaint, rfl⟩ := Option.map_eq_some_iff.mp hsome
        exact ⟨o, message, help, isError, hmem, hcomplaint, rfl⟩
  · rintro ⟨o, message, help, isError, hmem, hcomplaint, hf⟩
    refine ⟨_, hmem, ?_⟩
    rw [ofSegment?, hcomplaint, hf]
    rfl

/-- Strictness weighs the findings and finds no others. -/
theorem complaint?_strict (meaning : Meaning) : complaint? registry true meaning =
    (complaint? registry false meaning).map fun (message, help, _) => (message, help, true) := by
  cases meaning with
  | malformed e => rfl
  | testData column => rfl
  | function i =>
      simp only [complaint?]
      split <;> rfl

theorem isError_of_lenient {meaning : Meaning} {message : Text} {help : Option Text}
    {isError : Bool} (h : complaint? registry false meaning = some (message, help, isError)) :
    isError = false ↔ ∃ i, meaning = .function i ∧ registry.contains i.function = false := by
  cases meaning with
  | malformed e =>
      obtain ⟨_, hpair⟩ := Prod.mk.inj (Option.some.inj h)
      obtain ⟨_, rfl⟩ := Prod.mk.inj hpair
      simp
  | testData column => contradiction
  | function i =>
      have hcontains := contains_of_complaint h
      simp only [complaint?, hcontains, Bool.false_eq_true, if_false, Option.some.injEq,
        Prod.mk.injEq] at h
      simp [hcontains, ← h.2.2]

theorem ofDocument_strict (file document : Text) : ofDocument registry true file document =
    (ofDocument registry false file document).map fun f => { f with isError := true } := by
  rw [ofDocument, ofDocument, List.map_filterMap]
  apply List.filterMap_congr
  intro segment _
  cases segment with
  | literal t => rfl
  | placeholder start o =>
      rw [ofSegment?, ofSegment?, complaint?_strict, Option.map_map, Option.map_map]
      rfl

theorem ofDocuments_strict (documents : List (Text × Text)) :
    ofDocuments registry true documents =
      (ofDocuments registry false documents).map fun f => { f with isError := true } := by
  simp only [ofDocuments, ofDocument_strict, List.map_flatMap]

/-- To a check that is not strict, all is an error but a function that is not registered. -/
theorem isError_eq_false_iff {file document : Text} {f : Finding}
    (hf : f ∈ ofDocument registry false file document) : f.isError = false ↔
      ∃ o i, .placeholder f.start o ∈ Segment.scan document ∧ o.meaning = .function i ∧
        registry.contains i.function = false := by
  obtain ⟨o, message, help, isError, hmem, hcomplaint, hf⟩ := (mem_ofDocument_iff registry).mp hf
  have hweight := isError_of_lenient registry hcomplaint
  rw [hf]
  refine hweight.trans ⟨?_, ?_⟩
  · rintro ⟨i, hi, hcontains⟩
    exact ⟨o, i, hmem, hi, hcontains⟩
  · rintro ⟨o', i, hmem', hi, hcontains⟩
    obtain rfl := Segment.eq_of_mem_scan hmem hmem'
    exact ⟨i, hi, hcontains⟩

end Finding

section
variable {m : Type → Type} [Monad m] [LawfulMonad m]

theorem Registry.evaluate_unregistered (registry : Registry m) (identity : Text) {i : Invocation}
    (h : registry.contains i.function = false) :
    registry.evaluate identity Fallback.none i =
      pure (.error (.fallback (.unsupported i.written i.function))) := by
  have hget : registry.get? i.function = none := by
    simpa [contains] using h
  rw [evaluate_of_get?_eq_none hget, Fallback.none, map_pure, Except.mapError]

/-- A placeholder that a check complains about is an error without more ado. -/
theorem Resolver.resolveOccurrence_of_complaint {r : Resolver m}
    (hfallback : r.fallback = Fallback.none) {o : Occurrence} {strict isError : Bool}
    {message : Text} {help : Option Text}
    (h : Finding.complaint? r.registry strict o.meaning = some (message, help, isError)) :
    ∃ e, r.resolveOccurrence o = pure (.error e) ∧
      ∀ p, o.meaning = .malformed p → e.message = message := by
  unfold resolveOccurrence
  cases hmeaning : o.meaning with
  | malformed p =>
      rw [hmeaning] at h
      obtain ⟨rfl, _⟩ := Prod.mk.inj (Option.some.inj h)
      exact ⟨_, rfl, fun _ _ => rfl⟩
  | testData column =>
      rw [hmeaning] at h
      contradiction
  | function i =>
      rw [hmeaning] at h
      have hcontains := Finding.contains_of_complaint h
      rw [hfallback]
      simp only [Registry.evaluate_unregistered r.registry r.identity hcontains, pure_bind]
      exact ⟨_, rfl, fun p hp => Meaning.noConfusion hp⟩

end

namespace Command

theorem reportFindings_code_eq_okCode {findings : List Finding} {placeholders files : Nat}
    {json : Bool} : (reportFindings findings placeholders files json).code = okCode ↔
      ∀ f ∈ findings, f.isError = false := by
  simp only [reportFindings]
  split
  · next h => simpa [List.filter_eq_nil_iff] using h
  · next h => simpa [List.filter_eq_nil_iff, badInputCode, okCode] using h

theorem reportFindings_code_eq_badInputCode {findings : List Finding} {placeholders files : Nat}
    {json : Bool} : (reportFindings findings placeholders files json).code = badInputCode ↔
      ∃ f ∈ findings, f.isError = true := by
  simp only [reportFindings]
  split
  · next h => simpa [List.filter_eq_nil_iff, badInputCode, okCode] using h
  · next h => simpa [List.filter_eq_nil_iff] using h

/-- The findings of each file in turn. -/
def findings {m : Type → Type} (registry : Registry m) (contents : Text → Option Text)
    (strict : Bool) (files : List Text) : List Finding :=
  files.flatMap fun file =>
    ((contents file).map (Finding.ofDocument registry strict file)).getD []

theorem readFiles_of_readable {contents : Text → Option Text} {files : List Text}
    (h : ∀ file ∈ files, (contents file).isSome) : ∃ documents,
      readFiles contents files = .ok documents ∧
      ∀ (m : Type → Type) (registry : Registry m) (strict : Bool),
        Finding.ofDocuments registry strict documents =
          findings registry contents strict files := by
  induction files with
  | nil => exact ⟨[], rfl, fun _ _ _ => rfl⟩
  | cons file files ih =>
      obtain ⟨documents, hread, hfindings⟩ := ih fun f hf => h f (List.mem_cons_of_mem _ hf)
      obtain ⟨document, hdocument⟩ := Option.isSome_iff_exists.mp (h file (List.mem_cons_self ..))
      refine ⟨(file, document) :: documents, ?_, ?_⟩
      · rw [readFiles, hdocument, hread]
        rfl
      · intro m registry strict
        simp only [Finding.ofDocuments, findings, List.flatMap_cons, hdocument] at hfindings ⊢
        rw [hfindings]
        rfl

section
variable {registry : Registry (StateM Clock)} {contents : Text → Option Text}

/-- Whatever the clock shows and the test data are, a rendering fails where a check finds
something. -/
theorem exists_failure_of_finding {strict : Bool} {file document : Text} {f : Finding}
    (hf : f ∈ Finding.ofDocument registry strict file document) (clock : Clock) (identity : Text)
    (data : List (Text × Text)) :
    ∃ g ∈ failures (clock.run (resolveDocument registry identity document data)),
      g.start = f.start ∧ g.stop = f.stop ∧ g.placeholder = f.placeholder ∧
      ∀ o e, .placeholder f.start o ∈ Segment.scan document → o.meaning = .malformed e →
        g.message = f.message := by
  obtain ⟨o, message, help, isError, hmem, hcomplaint, hf⟩ :=
    (Finding.mem_ofDocument_iff registry).mp hf
  obtain ⟨e, hresult, hmessage⟩ := Resolver.resolveOccurrence_of_complaint
    (r := ⟨registry, identity, Fallback.none, dataSource data⟩) rfl hcomplaint
  obtain ⟨time, hpart⟩ := Clock.exists_run_mem_mapM
    (Resolver.resolveSegment ⟨registry, identity, Fallback.none, dataSource data⟩) hmem clock
  rw [Resolver.resolveSegment, hresult, pure_bind, Clock.run_pure] at hpart
  refine ⟨_, List.mem_filterMap.mpr ⟨_, hpart, rfl⟩, rfl, ?_, ?_, ?_⟩
  · rw [hf]
  · rw [hf]
  · intro o' p ho' hp
    obtain rfl := Segment.eq_of_mem_scan hmem ho'
    rw [hf]
    exact hmessage p hp

theorem run_render {file document : Text} (h : contents file = some document) (clock : Clock)
    (identity : Text) (data : List (Text × Text)) (json : Bool) :
    clock.run (execute registry identity contents (.render file data json)) =
      .ok (reportResolved (clock.run (resolveDocument registry identity document data)) json) := by
  simp only [execute, h, Clock.run_map]

/-- A file that renders can be read, and there is nothing to find in it. -/
theorem findings_of_render {file : Text} {clock : Clock} {identity : Text}
    {data : List (Text × Text)} {json : Bool}
    (h : exitCode (clock.run (execute registry identity contents (.render file data json))) =
      okCode) :
    ∃ document, contents file = some document ∧
      ∀ strict, Finding.ofDocument registry strict file document = [] := by
  cases hcontents : contents file with
  | none =>
      rw [execute, hcontents] at h
      contradiction
  | some document =>
      refine ⟨document, rfl, fun strict => List.eq_nil_iff_forall_not_mem.mpr fun f hf => ?_⟩
      obtain ⟨g, hg, _⟩ := exists_failure_of_finding hf clock identity data
      have hne := List.ne_nil_of_mem hg
      rw [run_render hcontents, exitCode, reportResolved, if_neg hne] at h
      contradiction

theorem run_check {files : List Text} {documents : List (Text × Text)}
    (h : readFiles contents files = .ok documents) (clock : Clock) (identity : Text)
    (json strict : Bool) :
    clock.run (execute registry identity contents (.check files json strict)) =
      .ok (checkDocuments registry documents json strict) := by
  simp only [execute, h, Clock.run_pure, Except.map]

theorem exitCode_check_lenient {files : List Text} {clock : Clock} {identity : Text}
    {json : Bool} (h : exitCode (clock.run (execute registry identity contents
      (.check files json true))) = okCode) (json' : Bool) :
    exitCode (clock.run (execute registry identity contents (.check files json' false))) =
      okCode := by
  cases hread : readFiles contents files with
  | error file =>
      rw [execute, hread] at h
      contradiction
  | ok documents =>
      rw [run_check hread, exitCode, checkDocuments, reportFindings_code_eq_okCode] at h ⊢
      rw [Finding.ofDocuments_strict] at h
      intro f hf
      exact absurd (h _ (List.mem_map_of_mem hf)) Bool.noConfusion

/-- A strict check passes files that all render, each at a time and with test data of its own. -/
theorem exitCode_check_of_render {files : List Text}
    (h : ∀ file ∈ files, ∃ clock identity data json, exitCode (Clock.run clock
      (execute registry identity contents (.render file data json))) = okCode)
    (clock : Clock) (identity : Text) (json : Bool) :
    exitCode (clock.run (execute registry identity contents (.check files json true))) =
      okCode := by
  have hnone : ∀ file ∈ files, ∃ document, contents file = some document ∧
      ∀ strict, Finding.ofDocument registry strict file document = [] := by
    intro file hfile
    obtain ⟨clock, identity, data, json, hcode⟩ := h file hfile
    exact findings_of_render hcode
  have hreadable : ∀ file ∈ files, (contents file).isSome := by
    intro file hfile
    obtain ⟨document, hdocument, _⟩ := hnone file hfile
    exact Option.isSome_of_eq_some hdocument
  obtain ⟨documents, hread, hfindings⟩ := readFiles_of_readable hreadable
  rw [run_check hread, exitCode, checkDocuments, reportFindings_code_eq_okCode, hfindings]
  intro f hf
  obtain ⟨file, hfile, hmem⟩ := List.mem_flatMap.mp hf
  obtain ⟨document, hdocument, hnil⟩ := hnone file hfile
  rw [hdocument, Option.map_some, hnil] at hmem
  contradiction

end

/-- Checks and renderings agree. What a check finds in a document is a failure of every rendering of
it, at the same bytes and, if the placeholder is malformed, with the same message. So documents that
render pass a strict check, and what passes a strict check passes a check. Strictness changes no
finding but the weight of functions that are not registered. And a check of files that can be read
reports the findings of each file in turn, and fails if and only if one of them is an error. -/
theorem check_agrees_with_render (registry : Registry (StateM Clock))
    (contents : Text → Option Text) :
    (∀ file document, contents file = some document → ∀ clock identity data,
      (∀ json, Clock.run clock (execute registry identity contents (.render file data json)) =
        .ok (reportResolved (clock.run (resolveDocument registry identity document data)) json)) ∧
      ∀ strict, ∀ f ∈ Finding.ofDocument registry strict file document,
        ∃ g ∈ failures (clock.run (resolveDocument registry identity document data)),
          g.start = f.start ∧ g.stop = f.stop ∧ g.placeholder = f.placeholder ∧
          ∀ o e, .placeholder f.start o ∈ Segment.scan document → o.meaning = .malformed e →
            g.message = f.message) ∧
    (∀ files, (∀ file ∈ files, ∃ clock identity data json, exitCode (Clock.run clock
        (execute registry identity contents (.render file data json))) = okCode) →
      ∀ clock identity json, exitCode (Clock.run clock
        (execute registry identity contents (.check files json true))) = okCode) ∧
    (∀ files clock identity json, exitCode (Clock.run clock
        (execute registry identity contents (.check files json true))) = okCode →
      ∀ json', exitCode (Clock.run clock
        (execute registry identity contents (.check files json' false))) = okCode) ∧
    (∀ file document,
      Finding.ofDocument registry true file document =
        (Finding.ofDocument registry false file document).map
          (fun f => { f with isError := true }) ∧
      ∀ f ∈ Finding.ofDocument registry false file document, (f.isError = false ↔
        ∃ o i, .placeholder f.start o ∈ Segment.scan document ∧ o.meaning = .function i ∧
          registry.contains i.function = false)) ∧
    ∀ files, (∀ file ∈ files, (contents file).isSome) → ∀ clock identity json strict, ∃ outcome,
      Clock.run clock (execute registry identity contents (.check files json strict)) =
        .ok outcome ∧
      (json = true → outcome.stdout =
        line (Json.array ((findings registry contents strict files).map findingJson)).pretty) ∧
      (json = false →
        (findings registry contents strict files).flatMap reportFinding <+: outcome.stderr) ∧
      (outcome.code = badInputCode ↔
        ∃ f ∈ findings registry contents strict files, f.isError = true) ∧
      (outcome.code = okCode ↔
        ∀ f ∈ findings registry contents strict files, f.isError = false) := by
  refine ⟨?_, ?_, ?_, ?_, ?_⟩
  · intro file document hcontents clock identity data
    refine ⟨run_render hcontents clock identity data, ?_⟩
    intro strict f hf
    exact exists_failure_of_finding hf clock identity data
  · intro files hrender clock identity json
    exact exitCode_check_of_render hrender clock identity json
  · intro files clock identity json hstrict json'
    exact exitCode_check_lenient hstrict json'
  · intro file document
    exact ⟨Finding.ofDocument_strict registry file document,
      fun f hf => Finding.isError_eq_false_iff registry hf⟩
  · intro files hreadable clock identity json strict
    obtain ⟨documents, hread, hfindings⟩ := readFiles_of_readable hreadable
    refine ⟨_, run_check hread clock identity json strict, ?_, ?_, ?_, ?_⟩
    · intro hjson
      rw [checkDocuments, reportFindings, if_pos hjson, hfindings]
    · intro hjson
      simp only [checkDocuments, reportFindings, hjson, hfindings, Bool.false_eq_true, if_false]
      exact List.prefix_append _ _
    · rw [checkDocuments, reportFindings_code_eq_badInputCode, hfindings]
    · rw [checkDocuments, reportFindings_code_eq_okCode, hfindings]

/-- Two files at a clock that moves by a day after each reading: the first renders, and the second
has a malformed placeholder behind a function that is not registered. -/
theorem check_agrees_with_render_of_files :
    let contents : Text → Option Text := fun file => List.lookup file
      [(['a'], "{{Fenix.TodayShiftDay(1)}}".toList), (['b'], "{{A()}}{{Broken}}".toList)]
    let clock := Clock.ticking ⟨⟨2026, 2, 24⟩, 13, 7, 9, 0⟩ 86400
    exitCode (clock.run (execute .standard [] contents (.render ['a'] [] false))) = okCode ∧
    exitCode (clock.run (execute .standard [] contents (.check [['a']] true true))) = okCode ∧
    (∃ g ∈ failures (clock.run (resolveDocument .standard [] "{{A()}}{{Broken}}".toList [])),
      g.start = 7 ∧ g.stop = 17 ∧ g.placeholder = "{{Broken}}".toList ∧
      g.message = "no match found for '{{Broken}}'".toList) ∧
    exitCode (clock.run (execute .standard [] contents (.check [['a'], ['b']] true false))) =
      badInputCode := by
  intro contents clock
  obtain ⟨hfailures, hrender, _, _, hcheck⟩ := check_agrees_with_render .standard contents
  have hcode : exitCode (clock.run (execute .standard [] contents (.render ['a'] [] false))) =
      okCode := by decide +kernel
  refine ⟨hcode, ?_, ?_, ?_⟩
  · refine hrender [['a']] ?_ clock [] true
    intro file hfile
    obtain rfl := List.mem_singleton.mp hfile
    exact ⟨clock, [], [], false, hcode⟩
  · have hfinding : ⟨['b'], 7, 17, "{{Broken}}".toList,
        "no match found for '{{Broken}}'".toList, none, true⟩ ∈
        Finding.ofDocument (Registry.standard : Registry (StateM Clock)) true ['b']
          "{{A()}}{{Broken}}".toList := by decide +kernel
    obtain ⟨g, hg, hstart, hstop, hplaceholder, hmessage⟩ :=
      (hfailures ['b'] _ rfl clock [] []).2 true _ hfinding
    refine ⟨g, hg, hstart, hstop, hplaceholder, ?_⟩
    exact hmessage (.ofBody "Broken".toList) _ (by decide) rfl
  · have hreadable : ∀ file ∈ [['a'], ['b']], (contents file).isSome := by decide
    obtain ⟨outcome, hrun, _, _, hbad, _⟩ := hcheck _ hreadable clock [] true false
    rw [hrun]
    exact hbad.mpr (by decide +kernel)

end Command
end Placeholders
