import Placeholders.Proofs.Calendar.Clock
import Placeholders.Proofs.Document.Locality
import Placeholders.Proofs.Function.ShiftedDate
import Placeholders.Proofs.Registry.Routing

/-!
Readings of the clock. A standard function reads it once when its call is good and asks for the
time, and otherwise not at all; so the readings of a document are those of its calls, in order.
-/

namespace Placeholders

theorem Answer.runAt_give {α : Type} (now : Instant) (answer : Answer α) :
    Resolver.runAt now answer.give = answer.valueAt now := by
  cases answer with
  | known a => rfl
  | timed f => rfl

namespace UniqueId

/-- At most one index, and one argument. -/
def ReadsClock (i : Invocation) : Prop := i.indexes.length ≤ 1 ∧ i.arguments.length = 1

instance (i : Invocation) : Decidable (ReadsClock i) := instDecidableAnd

def answer (call : Call) : Answer (Except CallError Text) :=
  match request call with
  | .error e => .known (.error e)
  | .ok (index, text) => .timed fun now => .ok (fill now (.atIndex call.seed index) text)

theorem handler_eq_give {m : Type → Type} [Monad m] [MonadClock m] (call : Call) :
    handler (m := m) call = (answer call).give := by
  unfold handler answer
  cases request call with
  | error e => rfl
  | ok request => rfl

theorem answer_of_readsClock {call : Call} (h : ReadsClock call.invocation) :
    ∃ index text, call.invocation.arguments = [text] ∧
      answer call = .timed fun now => .ok (fill now (.atIndex call.seed index) text) := by
  obtain ⟨index, hindex⟩ := call.onlyIndex_eq_ok h.1
  obtain ⟨text, htext⟩ := List.length_eq_one_iff.mp h.2
  refine ⟨index, text, htext, ?_⟩
  simp only [answer, request, hindex, htext]

theorem answer_of_not_readsClock {call : Call} (h : ¬ ReadsClock call.invocation) :
    ∃ e, answer call = .known (.error e) := by
  by_cases hindexes : call.invocation.indexes.length ≤ 1
  · obtain ⟨index, hindex⟩ := call.onlyIndex_eq_ok hindexes
    have hrequest : request call = .error (call.countError .exactlyOne) := by
      simp only [request, hindex]
      split
      · next text htext => exact absurd ⟨hindexes, htext ▸ rfl⟩ h
      · rfl
    refine ⟨call.countError .exactlyOne, ?_⟩
    simp only [answer, hrequest]
  · refine ⟨call.error (.tooManyIndexes call.invocation.indexes), ?_⟩
    simp only [answer, request, call.onlyIndex_eq_error hindexes]

theorem readings_answer (call : Call) :
    (answer call).readings = if ReadsClock call.invocation then 1 else 0 := by
  refine Answer.readings_eq (fun hgood => ?_) (fun hbad => ?_)
  · obtain ⟨_, _, _, hanswer⟩ := answer_of_readsClock hgood
    exact ⟨_, hanswer⟩
  · obtain ⟨_, hanswer⟩ := answer_of_not_readsClock hbad
    exact ⟨_, hanswer⟩

end UniqueId

namespace ShiftedDate

/-- No index, and no argument or one that is an integer of 64 bits. -/
def ReadsClock (i : Invocation) : Prop :=
  i.indexes = [] ∧ (i.arguments = [] ∨
    ∃ argument, ∃ days : Int64, i.arguments = [argument] ∧
      Numeral.Signed argument.trim days.toInt)

theorem readsClock_iff {call : Call} :
    ReadsClock call.invocation ↔ ∃ argument days, Shifts call argument days := by
  unfold ReadsClock Shifts
  constructor
  · rintro ⟨hindexes, hnone | ⟨argument, days, hone, hsigned⟩⟩
    · exact ⟨['0'], 0, hindexes, .inl ⟨hnone, rfl, rfl⟩⟩
    · exact ⟨argument, days, hindexes, .inr ⟨hone, hsigned⟩⟩
  · rintro ⟨argument, days, hindexes, ⟨hnone, -, -⟩ | ⟨hone, hsigned⟩⟩
    · exact ⟨hindexes, .inl hnone⟩
    · exact ⟨hindexes, .inr ⟨argument, days, hone, hsigned⟩⟩

instance (i : Invocation) : Decidable (ReadsClock i) :=
  decidable_of_iff ((offset (.ofInvocation [] i)).toBool = true) <| by
    refine Iff.trans ?_ (@readsClock_iff (.ofInvocation [] i)).symm
    simp only [← offset_eq_ok_iff]
    cases offset (.ofInvocation [] i) with
    | error e => simp [Except.toBool]
    | ok asked => exact iff_of_true rfl ⟨asked.1, asked.2, rfl⟩

def answer (call : Call) : Answer (Except CallError Text) :=
  match offset call with
  | .error e => .known (.error e)
  | .ok (argument, days) => .timed fun now =>
    match shifted? now days with
    | some date => .ok date
    | none => .error (call.error (.outOfRange argument .dateOutsideCalendar))

theorem handler_eq_give {m : Type → Type} [Monad m] [MonadClock m] (call : Call) :
    handler (m := m) call = (answer call).give := by
  unfold handler answer
  cases offset call with
  | error e => rfl
  | ok asked =>
      refine bind_congr fun now => ?_
      dsimp only
      cases shifted? now asked.2 with
      | some date => rfl
      | none => rfl

theorem answer_of_readsClock {call : Call} (h : ReadsClock call.invocation) :
    ∃ argument days, Shifts call argument days ∧ answer call = .timed fun now =>
      match shifted? now days with
      | some date => .ok date
      | none => .error (call.error (.outOfRange argument .dateOutsideCalendar)) := by
  obtain ⟨argument, days, hshifts⟩ := readsClock_iff.mp h
  refine ⟨argument, days, hshifts, ?_⟩
  simp only [answer, offset_eq_ok_iff.mpr hshifts]

theorem answer_of_not_readsClock {call : Call} (h : ¬ ReadsClock call.invocation) :
    ∃ e, answer call = .known (.error e) := by
  cases hoffset : offset call with
  | error e => exact ⟨e, by simp only [answer, hoffset]⟩
  | ok asked => exact absurd (readsClock_iff.mpr ⟨_, _, offset_eq_ok_iff.mp hoffset⟩) h

theorem readings_answer (call : Call) :
    (answer call).readings = if ReadsClock call.invocation then 1 else 0 := by
  refine Answer.readings_eq (fun hgood => ?_) (fun hbad => ?_)
  · obtain ⟨_, _, _, hanswer⟩ := answer_of_readsClock hgood
    exact ⟨_, hanswer⟩
  · obtain ⟨_, hanswer⟩ := answer_of_not_readsClock hbad
    exact ⟨_, hanswer⟩

end ShiftedDate

/-- Good calls of the functions that ask for the time. -/
def Invocation.ReadsClock (i : Invocation) : Prop :=
  i.function = "Fenix_ControlledUniqueId".toList ∧ UniqueId.ReadsClock i ∨
    i.function = "Fenix_TodayShiftDay".toList ∧ ShiftedDate.ReadsClock i

instance : DecidablePred Invocation.ReadsClock := fun _ => instDecidableOr

namespace Registry

/-- How the standard functions answer. -/
def standardAnswers : List (Text × (Call → Answer (Except CallError Text))) :=
  [("Fenix_TodayShiftDay".toList, ShiftedDate.answer),
    ("Fenix_ControlledUniqueId".toList, UniqueId.answer),
    ("Fenix_RandomPositiveDecimalValue".toList, fun call => .known (RandomDecimal.value call)),
    ("Fenix_RandomPositiveDecimalValue_Sum".toList, fun call => .known (RandomDecimal.sum call))]

theorem get?_standard_eq_give {m : Type → Type} [Monad m] [MonadClock m] (name : Text) :
    (standard : Registry m).get? name =
      (standardAnswers.lookup name).map fun answer call => (answer call).give := by
  have hentries : (standardEntries : List (Text × Handler m)) =
      standardAnswers.map fun (name, answer) => (name, fun call => (answer call).give) := by
    simp only [standardEntries, standardAnswers, List.map_cons, List.map_nil,
      ← ShiftedDate.handler_eq_give, ← UniqueId.handler_eq_give]
    rfl
  rw [get?_standard, hentries]
  exact lookup_map (fun _ (answer : Call → Answer (Except CallError Text)) =>
    (fun call => (answer call).give : Handler m)) standardAnswers name

theorem isSome_lookup_of_readsClock {i : Invocation} (h : i.ReadsClock) :
    (standardAnswers.lookup i.function).isSome := by
  obtain ⟨hname, -⟩ | ⟨hname, -⟩ := h
  · rw [hname]
    rfl
  · rw [hname]
    rfl

/-- A standard function reads the clock once for its good calls if it asks for the time. -/
theorem readings_of_lookup {answer : Call → Answer (Except CallError Text)} {call : Call}
    (h : standardAnswers.lookup call.invocation.function = some answer) :
    (answer call).readings = if call.invocation.ReadsClock then 1 else 0 := by
  obtain ⟨before, after, hentries, _⟩ := List.lookup_eq_some_iff.mp h
  have hmem : (call.invocation.function, answer) ∈ standardAnswers := by simp [hentries]
  simp only [standardAnswers, List.mem_cons, Prod.mk.injEq, List.not_mem_nil, or_false] at hmem
  unfold Invocation.ReadsClock
  rcases hmem with ⟨hname, rfl⟩ | ⟨hname, rfl⟩ | ⟨hname, rfl⟩ | ⟨hname, rfl⟩
  · have hother : "Fenix_TodayShiftDay".toList ≠ "Fenix_ControlledUniqueId".toList := by decide
    simp only [hname, hother, false_and, true_and, false_or]
    exact ShiftedDate.readings_answer call
  · have hother : "Fenix_ControlledUniqueId".toList ≠ "Fenix_TodayShiftDay".toList := by decide
    simp only [hname, hother, false_and, true_and, or_false]
    exact UniqueId.readings_answer call
  · have hother : "Fenix_RandomPositiveDecimalValue".toList ≠ "Fenix_ControlledUniqueId".toList ∧
        "Fenix_RandomPositiveDecimalValue".toList ≠ "Fenix_TodayShiftDay".toList := by decide
    simp only [hname, hother, false_and, or_false, if_false]
    rfl
  · have hother : "Fenix_RandomPositiveDecimalValue_Sum".toList ≠
          "Fenix_ControlledUniqueId".toList ∧
        "Fenix_RandomPositiveDecimalValue_Sum".toList ≠ "Fenix_TodayShiftDay".toList := by decide
    simp only [hname, hother, false_and, or_false, if_false]
    rfl

/-- How an invocation is answered, by a standard function or by a fallback without a clock. -/
def answer (identity : Text) (script : Text → Invocation → Except FallbackError Text)
    (i : Invocation) : Answer (Except ResolutionError Text) :=
  match standardAnswers.lookup i.function with
  | some answer => (answer (.ofInvocation identity i)).map (Except.mapError .call)
  | none => .known ((script identity i).mapError .fallback)

section
variable (identity : Text) (script : Text → Invocation → Except FallbackError Text)
  (i : Invocation)

theorem evaluate_eq_give {m : Type → Type} [Monad m] [LawfulMonad m] [MonadClock m] :
    (standard : Registry m).evaluate identity (fun identity i => pure (script identity i)) i =
      (answer identity script i).give := by
  unfold answer
  cases hlookup : standardAnswers.lookup i.function with
  | some f =>
      have hget := get?_standard_eq_give (m := m) i.function
      rw [hlookup, Option.map_some] at hget
      rw [evaluate_of_get?_eq_some hget, Answer.map_give]
  | none =>
      have hget := get?_standard_eq_give (m := m) i.function
      rw [hlookup, Option.map_none] at hget
      rw [evaluate_of_get?_eq_none hget, map_pure]
      rfl

theorem readings_answer :
    (answer identity script i).readings = if i.ReadsClock then 1 else 0 := by
  unfold answer
  cases hlookup : standardAnswers.lookup i.function with
  | some f => exact (Answer.readings_map _ _).trans (readings_of_lookup hlookup)
  | none =>
      have hquiet : ¬ i.ReadsClock := by
        intro h
        have hsome := isSome_lookup_of_readsClock h
        simp [hlookup] at hsome
      rw [if_neg hquiet, Answer.readings]

end

end Registry

/-- A placeholder with a good call of a function that asks for the time. -/
def Segment.ReadsClock : Segment → Prop
  | .placeholder _ ⟨_, .function i⟩ => i.ReadsClock
  | _ => False

instance : DecidablePred Segment.ReadsClock
  | .placeholder _ ⟨_, .function i⟩ => inferInstanceAs (Decidable i.ReadsClock)
  | .placeholder _ ⟨_, .testData _⟩ => .isFalse id
  | .placeholder _ ⟨_, .malformed _⟩ => .isFalse id
  | .literal _ => .isFalse id

namespace Resolver

section
variable (identity : Text) (script : Text → Invocation → Except FallbackError Text)
  (data : ColumnValues)

/-- The standard functions, and a fallback without a clock. -/
def withScript (m : Type → Type) [Monad m] [MonadClock m] : Resolver m :=
  ⟨.standard, identity, fun identity i => pure (script identity i), data⟩

/-- How a segment is resolved with the standard functions. -/
def answer : Segment → Answer ResolvedPart
  | .literal t => .known (.literal t)
  | .placeholder start o =>
    match o.meaning with
    | .function i =>
      (Registry.answer identity script i).map fun result =>
        .placeholder start o.written (result.mapError .resolution)
    | .testData column => .known (.placeholder start o.written (data.answer o.written column))
    | .malformed e => .known (.placeholder start o.written (.error (.resolution (.parse e))))

theorem resolveSegment_eq_give {m : Type → Type} [Monad m] [LawfulMonad m] [MonadClock m]
    (segment : Segment) : (withScript identity script data m).resolveSegment segment =
      (answer identity script data segment).give := by
  cases segment with
  | literal t => rfl
  | placeholder start o =>
      simp only [resolveSegment, resolveOccurrence, answer]
      cases o.meaning with
      | function i =>
          simp only [withScript, Registry.evaluate_eq_give, ← Answer.map_give, map_eq_pure_bind,
            bind_assoc]
          refine bind_congr fun result => ?_
          cases result with
          | ok value => simp [Except.mapError]
          | error e => simp [Except.mapError]
      | testData column => simp [Answer.give, withScript]
      | malformed e => simp [Answer.give]

theorem readings_answer (segment : Segment) :
    (answer identity script data segment).readings = if segment.ReadsClock then 1 else 0 := by
  cases segment with
  | literal t => rfl
  | placeholder start o =>
      obtain ⟨written, meaning⟩ := o
      cases meaning with
      | function i => exact (Answer.readings_map _ _).trans (Registry.readings_answer _ _ i)
      | testData column => rfl
      | malformed e => rfl

theorem run_resolveSegment (clock : Clock) (segment : Segment) :
    StateT.run ((withScript identity script data (StateM Clock)).resolveSegment segment) clock =
      (runAt (clock.instantAt clock.readings)
          ((withScript identity script data (ReaderM Instant)).resolveSegment segment),
        { clock with readings := clock.readings + if segment.ReadsClock then 1 else 0 }) := by
  rw [resolveSegment_eq_give, resolveSegment_eq_give, Answer.run_give, Answer.runAt_give,
    readings_answer]

theorem after_resolveSegment (segments : List Segment) (clock : Clock) :
    clock.after (withScript identity script data (StateM Clock)).resolveSegment segments =
      { clock with readings := clock.readings + segments.countP Segment.ReadsClock } := by
  refine Clock.after_eq _ (fun segment clock => ?_) segments clock
  rw [run_resolveSegment]

theorem run_evaluate (clock : Clock) (i : Invocation) :
    StateT.run (Registry.evaluate (.standard : Registry (StateM Clock)) identity
        (fun identity i => pure (script identity i)) i) clock =
      (runAt (clock.instantAt clock.readings)
          (Registry.evaluate .standard identity (fun identity i => pure (script identity i)) i),
        { clock with readings := clock.readings + if i.ReadsClock then 1 else 0 }) := by
  rw [Registry.evaluate_eq_give, Registry.evaluate_eq_give, Answer.run_give, Answer.runAt_give,
    Registry.readings_answer]

/-- In every setting with a clock, a call of a standard function asks for the time once or not at
all. An identifier does if the call has at most one index and one argument, and all of it is of that
one instant; a moved date does if there is no index and no argument or an integer, even if the day
is beyond the calendar; and decimals never do. So the clock of a document counts the placeholders
with such calls, each of them sees the instant after those before it, and it becomes what it becomes
when time stands still at that instant. -/
theorem clock_discipline (clock : Clock) :
    (∀ call : Call,
      (UniqueId.ReadsClock call.invocation →
        ∃ index text, call.invocation.arguments = [text] ∧
          ∀ {m : Type → Type} [Monad m] [MonadClock m], UniqueId.handler (m := m) call = do
            let now ← MonadClock.now
            pure (.ok (UniqueId.fill now (.atIndex call.seed index) text))) ∧
      (¬ UniqueId.ReadsClock call.invocation → ∃ e,
        ∀ {m : Type → Type} [Monad m] [MonadClock m],
          UniqueId.handler (m := m) call = pure (.error e)) ∧
      (ShiftedDate.ReadsClock call.invocation →
        ∃ argument days, ShiftedDate.Shifts call argument days ∧
          ∀ {m : Type → Type} [Monad m] [MonadClock m], ShiftedDate.handler (m := m) call = do
            let now ← MonadClock.now
            pure (match ShiftedDate.shifted? now days with
              | some date => .ok date
              | none => .error (call.error (.outOfRange argument .dateOutsideCalendar)))) ∧
      (¬ ShiftedDate.ReadsClock call.invocation → ∃ e,
        ∀ {m : Type → Type} [Monad m] [MonadClock m],
          ShiftedDate.handler (m := m) call = pure (.error e)) ∧
      ∀ {m : Type → Type} [Monad m],
        RandomDecimal.handler (m := m) call = pure (RandomDecimal.value call) ∧
        RandomDecimal.sumHandler (m := m) call = pure (RandomDecimal.sum call)) ∧
    (∀ i, StateT.run (Registry.evaluate (.standard : Registry (StateM Clock)) identity
        (fun identity i => pure (script identity i)) i) clock =
      (runAt (clock.instantAt clock.readings)
          (Registry.evaluate .standard identity (fun identity i => pure (script identity i)) i),
        { clock with readings := clock.readings + if i.ReadsClock then 1 else 0 })) ∧
    ∀ document, ∃ parts,
      StateT.run ((withScript identity script data (StateM Clock)).resolve document) clock =
        (parts, { clock with
          readings := clock.readings + (Segment.scan document).countP Segment.ReadsClock }) ∧
      parts.length = (Segment.scan document).length ∧
      ∀ (k : Nat) segment, (Segment.scan document)[k]? = some segment → parts[k]? =
        some (runAt (clock.instantAt (clock.readings +
            ((Segment.scan document).take k).countP Segment.ReadsClock))
          ((withScript identity script data (ReaderM Instant)).resolveSegment segment)) := by
  refine ⟨fun call => ⟨?_, ?_, ?_, ?_, ⟨rfl, rfl⟩⟩, run_evaluate identity script clock, ?_⟩
  · intro hreads
    obtain ⟨index, text, htext, hanswer⟩ := UniqueId.answer_of_readsClock hreads
    refine ⟨index, text, htext, ?_⟩
    intro m _ _
    rw [UniqueId.handler_eq_give, hanswer, Answer.give]
  · intro hquiet
    obtain ⟨e, hanswer⟩ := UniqueId.answer_of_not_readsClock hquiet
    refine ⟨e, ?_⟩
    intro m _ _
    rw [UniqueId.handler_eq_give, hanswer, Answer.give]
  · intro hreads
    obtain ⟨argument, days, hshifts, hanswer⟩ := ShiftedDate.answer_of_readsClock hreads
    refine ⟨argument, days, hshifts, ?_⟩
    intro m _ _
    rw [ShiftedDate.handler_eq_give, hanswer, Answer.give]
  · intro hquiet
    obtain ⟨e, hanswer⟩ := ShiftedDate.answer_of_not_readsClock hquiet
    refine ⟨e, ?_⟩
    intro m _ _
    rw [ShiftedDate.handler_eq_give, hanswer, Answer.give]
  · intro document
    have hafter := after_resolveSegment identity script data
    refine ⟨clock.run ((withScript identity script data (StateM Clock)).resolve document), ?_,
      Clock.length_run_mapM _ _ clock, ?_⟩
    · exact congrArg (Prod.mk _) (hafter (Segment.scan document) clock)
    · intro k segment hsegment
      have hpart := Clock.getElem?_run_mapM
        (withScript identity script data (StateM Clock)).resolveSegment hsegment clock
      rw [hafter] at hpart
      exact hpart.trans (congrArg (some ∘ Prod.fst) (run_resolveSegment identity script data _ _))

end

/-- A clock that moves on by a minute whenever it is read. The second placeholder does not read it,
and the third one does once for two tokens. -/
theorem clock_discipline_of_ticking :
    let clock := Clock.ticking ⟨⟨2026, 2, 24⟩, 13, 7, 9, 0⟩ 60
    let uniqueId : Placeholder :=
      ⟨"Fenix.ControlledUniqueId".toList, none, "%hhmm%-%hh:mm:ss%".toList, none⟩
    let document := "{{Fenix.TodayShiftDay()}}{{Fenix.TodayShiftDay(x)}}".toList ++ uniqueId.written
    ∃ parts clock', StateT.run (resolve
        (withScript [] (fun _ i => .error (.unsupported i.written i.function)) .empty (StateM Clock))
        document) clock = (parts, clock') ∧
      clock'.readings = 2 ∧ parts[2]? = some
        (.placeholder 51 uniqueId.written (.ok "1308-13:08:09".toList)) := by
  intro clock uniqueId document
  obtain ⟨-, -, hdocument⟩ := clock_discipline []
    (fun _ i => .error (.unsupported i.written i.function)) .empty clock
  obtain ⟨parts, hrun, -, hparts⟩ := hdocument document
  have hthird : (Segment.scan document)[2]? =
      some (.placeholder 51 (.ofPlaceholder uniqueId)) := by decide +kernel
  have hbefore : ((Segment.scan document).take 2).countP Segment.ReadsClock = 1 := by
    decide +kernel
  have hall : (Segment.scan document).countP Segment.ReadsClock = 2 := by decide +kernel
  have hvalue : runAt (clock.instantAt (clock.readings + 1)) (resolveOccurrence
      (withScript [] (fun _ i => .error (.unsupported i.written i.function)) .empty
        (ReaderM Instant)) (.ofPlaceholder uniqueId)) = .ok "1308-13:08:09".toList := by
    decide +kernel
  refine ⟨parts, _, hrun, ?_, ?_⟩
  · rw [hall]
    rfl
  · rw [hparts 2 _ hthird, hbefore]
    exact congrArg (some ∘ ResolvedPart.placeholder 51 uniqueId.written) hvalue

end Resolver
end Placeholders
