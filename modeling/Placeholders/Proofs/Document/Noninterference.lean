import Placeholders.Proofs.Document.Locality
import Placeholders.Proofs.Registry.Routing

/-!
What the identity of a run can do to a document. It reaches the functions as a seed and in no other
way, so a document whose placeholders leave the identity out is the same in every run.
-/

namespace Placeholders

section
variable {m : Type → Type}

/-- A function to which the identity is nothing beyond the seed. -/
def IgnoresIdentity (handler : Handler m) : Prop :=
  ∀ call identity, handler { call with identity } = handler call

theorem IgnoresIdentity.ofInvocation_congr {handler : Handler m} (h : IgnoresIdentity handler)
    {a b : Text} {i : Invocation}
    (hseed : Seed.ofEntropy a i.entropy = Seed.ofEntropy b i.entropy) :
    handler (.ofInvocation a i) = handler (.ofInvocation b i) := by
  rw [Call.ofInvocation, hseed]
  exact h (.ofInvocation b i) a

namespace Registry

/-- No function of the registry looks at the identity. -/
def IgnoresIdentity (registry : Registry m) : Prop :=
  ∀ name handler, registry.get? name = some handler → Placeholders.IgnoresIdentity handler

theorem ignoresIdentity_standard [Monad m] [MonadClock m] :
    (standard : Registry m).IgnoresIdentity := by
  intro name handler hget
  rw [get?_standard] at hget
  obtain ⟨before, after, hentries, _⟩ := List.lookup_eq_some_iff.mp hget
  have hmem : (name, handler) ∈ (standardEntries : List (Text × Handler m)) := by simp [hentries]
  simp only [standardEntries, List.mem_cons, Prod.mk.injEq, List.not_mem_nil, or_false] at hmem
  intro call identity
  rcases hmem with ⟨_, rfl⟩ | ⟨_, rfl⟩ | ⟨_, rfl⟩ | ⟨_, rfl⟩
  · rfl
  · rfl
  · rfl
  · rfl

theorem IgnoresIdentity.evaluate_congr [Monad m] [LawfulMonad m] {registry : Registry m}
    (h : registry.IgnoresIdentity) {a b : Text} {i : Invocation}
    (hseed : Seed.ofEntropy a i.entropy = Seed.ofEntropy b i.entropy)
    (script : Invocation → m (Except FallbackError Text)) :
    registry.evaluate a (fun _ => script) i = registry.evaluate b (fun _ => script) i := by
  cases hget : registry.get? i.function with
  | none => rw [evaluate_of_get?_eq_none hget, evaluate_of_get?_eq_none hget]
  | some handler =>
      rw [evaluate_of_get?_eq_some hget, evaluate_of_get?_eq_some hget,
        (h _ _ hget).ofInvocation_congr hseed]

end Registry
end

namespace Placeholder

theorem entropy_of_invocation_eq_ok {p : Placeholder} {i : Invocation} (h : p.invocation = .ok i) :
    p.readEntropy = .ok i.entropy := by
  unfold invocation at h
  split at h
  · contradiction
  · split at h
    · contradiction
    · next entropy hentropy =>
      obtain rfl := Except.ok.inj h
      exact hentropy

theorem mixesIdentity_of_invocation_eq_ok {p : Placeholder} {i : Invocation} {e : EntropyClause}
    (he : p.entropy = some e) (h : p.invocation = .ok i) :
    i.entropy.mixesIdentity = e.mixesIdentity := by
  have hread := entropy_of_invocation_eq_ok h
  rw [readEntropy, he] at hread
  simp only [EntropyClause.read] at hread
  split at hread
  · rw [← Except.ok.inj hread]
  · split at hread
    · contradiction
    · rw [← Except.ok.inj hread]

end Placeholder

theorem Occurrence.meaning_ofPlaceholder_eq_function {p : Placeholder} {i : Invocation} :
    (ofPlaceholder p).meaning = .function i ↔ p.invocation = .ok i := by
  simp only [ofPlaceholder]
  cases p.invocation with
  | ok i' => simp
  | error e => simp

namespace Resolver

section
variable {m : Type → Type} [Monad m] [LawfulMonad m]

theorem mapM_congr_of_mem {α β : Type} {xs : List α} {f g : α → m β} (h : ∀ x ∈ xs, f x = g x) :
    xs.mapM f = xs.mapM g := by
  induction xs with
  | nil => rfl
  | cons x xs ih =>
      obtain ⟨hx, hxs⟩ := List.forall_mem_cons.mp h
      rw [List.mapM_cons, List.mapM_cons, hx, ih hxs]

/-- The seeds of its functions are all that a document shows of the identity. -/
theorem resolve_congr_of_seeds {registry : Registry m} (h : registry.IgnoresIdentity)
    (script : Invocation → m (Except FallbackError Text)) (data : ColumnValues) {document : Text}
    {a b : Text} (hseeds : ∀ start o i, .placeholder start o ∈ Segment.scan document →
      o.meaning = .function i → Seed.ofEntropy a i.entropy = Seed.ofEntropy b i.entropy) :
    resolve ⟨registry, a, fun _ => script, data⟩ document =
      resolve ⟨registry, b, fun _ => script, data⟩ document := by
  apply mapM_congr_of_mem
  intro segment hsegment
  cases segment with
  | literal t => rfl
  | placeholder start o =>
      simp only [resolveSegment, resolveOccurrence]
      cases hmeaning : o.meaning with
      | function i => simp only [h.evaluate_congr (hseeds start o i hsegment hmeaning)]
      | testData column => rfl
      | malformed e => rfl

end

/-- With the standard functions and a fallback that does not look at the identity, two runs make the
same of a document, in every part and so in its text and its failures, whatever the clock shows: if
each of its placeholders has an entropy control with `false`, and in any case if the identities have
the same checksum. -/
theorem identity_noninterference {m : Type → Type} [Monad m] [LawfulMonad m] [MonadClock m]
    (script : Invocation → m (Except FallbackError Text)) (data : ColumnValues) (document : Text)
    (a b : Text) :
    ((∀ start o p rest, .placeholder start o ∈ Segment.scan document →
        Placeholder.read? o.written = some (p, rest) → ∃ extra, p.entropy = some ⟨false, extra⟩) →
      resolve ⟨.standard, a, fun _ => script, data⟩ document =
        resolve ⟨.standard, b, fun _ => script, data⟩ document) ∧
    (Checksum.crc32 a.utf8 = Checksum.crc32 b.utf8 →
      resolve ⟨.standard, a, fun _ => script, data⟩ document =
        resolve ⟨.standard, b, fun _ => script, data⟩ document) := by
  constructor
  · intro hfalse
    refine resolve_congr_of_seeds Registry.ignoresIdentity_standard script data ?_
    intro start o i hmem hmeaning
    obtain ⟨s, _, hread⟩ := Segment.read?_of_mem_scan hmem
    obtain ⟨p, rest, hp, rfl⟩ := Occurrence.exists_of_hasForm hread (by rw [hmeaning]; trivial)
    have hagain := Placeholder.read?_written hp []
    rw [List.append_nil] at hagain
    obtain ⟨extra, hentropy⟩ := hfalse start _ p [] hmem hagain
    have hinvocation := Occurrence.meaning_ofPlaceholder_eq_function.mp hmeaning
    have hmixes := Placeholder.mixesIdentity_of_invocation_eq_ok hentropy hinvocation
    rw [Seed.ofEntropy_of_not_mixesIdentity hmixes, Seed.ofEntropy_of_not_mixesIdentity hmixes]
  · intro hcrc
    refine resolve_congr_of_seeds Registry.ignoresIdentity_standard script data ?_
    intro start o i _ _
    exact Seed.ofEntropy_eq_of_crc32_eq hcrc i.entropy

/-- The identities `plumless` and `buckeroo` have the same checksum. -/
theorem identity_noninterference_of_two_runs :
    let control : Placeholder := ⟨"Fenix.ControlledUniqueId".toList, none, "%nnn%".toList,
      some ⟨false, some ([], ['7'])⟩⟩
    Segment.scan "{{TestData.A}}{{Fenix.ControlledUniqueId(%nnn%)}(false,7)}".toList =
      [.placeholder 0 (.ofBody "TestData.A".toList), .placeholder 14 (.ofPlaceholder control)] ∧
    runAt ⟨⟨2026, 2, 24⟩, 13, 7, 9, 0⟩ (resolve ⟨.standard, "run-1".toList, .none, .empty⟩
        "{{TestData.A}}{{Fenix.ControlledUniqueId(%nnn%)}(false,7)}".toList) =
      runAt ⟨⟨2026, 2, 24⟩, 13, 7, 9, 0⟩ (resolve ⟨.standard, "run-2".toList, .none, .empty⟩
        "{{TestData.A}}{{Fenix.ControlledUniqueId(%nnn%)}(false,7)}".toList) ∧
    Checksum.crc32 (Text.utf8 "plumless".toList) =
      Checksum.crc32 (Text.utf8 "buckeroo".toList) ∧
    runAt ⟨⟨2026, 2, 24⟩, 13, 7, 9, 0⟩ (resolve ⟨.standard, "plumless".toList, .none, .empty⟩
        "{{Fenix.ControlledUniqueId(%nnn%)}}".toList) =
      runAt ⟨⟨2026, 2, 24⟩, 13, 7, 9, 0⟩ (resolve ⟨.standard, "buckeroo".toList, .none, .empty⟩
        "{{Fenix.ControlledUniqueId(%nnn%)}}".toList) := by
  intro control
  have hscan : Segment.scan
      "{{TestData.A}}{{Fenix.ControlledUniqueId(%nnn%)}(false,7)}".toList =
      [.placeholder 0 (.ofBody "TestData.A".toList), .placeholder 14 (.ofPlaceholder control)] := by
    decide
  have hcrc : Checksum.crc32 (Text.utf8 "plumless".toList) =
      Checksum.crc32 (Text.utf8 "buckeroo".toList) := by decide +kernel
  refine ⟨hscan, ?_, hcrc, ?_⟩
  · refine congrArg _ ((identity_noninterference (m := ReaderM Instant) _ _ _ _ _).1 ?_)
    intro start o p rest hmem hread
    rw [hscan] at hmem
    simp only [List.mem_cons, Segment.placeholder.injEq, List.not_mem_nil, or_false] at hmem
    rcases hmem with ⟨_, rfl⟩ | ⟨_, rfl⟩
    · have hnone : Placeholder.read? (Occurrence.ofBody "TestData.A".toList).written = none := by
        decide
      exact absurd hread (hnone ▸ Option.some_ne_none _).symm
    · have hcontrol : Placeholder.read? (Occurrence.ofPlaceholder control).written =
          some (control, []) := by decide
      rw [hcontrol] at hread
      obtain ⟨rfl, _⟩ := Prod.mk.inj (Option.some.inj hread)
      exact ⟨_, rfl⟩
  · exact congrArg _ ((identity_noninterference (m := ReaderM Instant) _ _ _ _ _).2 hcrc)

end Resolver
end Placeholders
