import Placeholders.Calendar.Clock
import Placeholders.Proofs.Entropy.Seed
import Placeholders.Proofs.Registry.Registration
import Placeholders.Resolution

/-!
Routing of invocations. Either the function of an invocation answers or the fallback does, each is
asked once, and the answer is passed on as it is.
-/

namespace Placeholders

/-- What a resolution asks others for. -/
inductive Inquiry where
  | function (name : Text) (call : Call)
  | fallback (identity : Text) (i : Invocation)
deriving Repr, DecidableEq

section
variable {m : Type → Type} [Monad m]

/-- Takes an action and puts on record what was asked for. -/
def Inquiry.noting {α : Type} (inquiry : Inquiry) (action : m α) : StateT (List Inquiry) m α :=
  fun log => (·, log ++ [inquiry]) <$> action

/-- A fallback that puts on record what it is asked for. -/
def Fallback.noted (fallback : Fallback m) : Fallback (StateT (List Inquiry) m) :=
  fun identity i => Inquiry.noting (.fallback identity i) (fallback identity i)

/-- A registry whose functions put on record what they are asked for. -/
def Registry.noted (registry : Registry m) : Registry (StateT (List Inquiry) m) where
  entries := registry.entries.map fun (name, handler) =>
    (name, fun call => Inquiry.noting (.function name call) (handler call))

theorem Inquiry.run_map_noting [LawfulMonad m] {α β : Type} (inquiry : Inquiry) (f : α → β)
    (action : m α) (log : List Inquiry) :
    (f <$> inquiry.noting action).run log = (·, log ++ [inquiry]) <$> f <$> action := by
  rw [StateT.run_map, Functor.map_map]
  exact Functor.map_map ..

end

namespace Registry

section
variable {m : Type → Type} [Monad m]

theorem get?_noted (registry : Registry m) (name : Text) : registry.noted.get? name =
    (registry.get? name).map fun handler call =>
      Inquiry.noting (.function name call) (handler call) :=
  lookup_map (fun name (handler : Handler m) call =>
    Inquiry.noting (.function name call) (handler call)) registry.entries name

variable [LawfulMonad m] {registry : Registry m} {i : Invocation}

theorem call_of_get?_eq_some {handler : Handler m} (h : registry.get? i.function = some handler)
    (identity : Text) : registry.call identity i =
      (fun answer => (answer.map .value).mapError .call) <$>
        handler (.ofInvocation identity i) := by
  simp only [call, h, map_eq_pure_bind]
  refine bind_congr fun answer => ?_
  cases answer with
  | ok value => rfl
  | error e => rfl

theorem evaluate_of_get?_eq_some {handler : Handler m}
    (h : registry.get? i.function = some handler) (identity : Text) (fallback : Fallback m) :
    registry.evaluate identity fallback i =
      Except.mapError .call <$> handler (.ofInvocation identity i) := by
  simp only [evaluate, call_of_get?_eq_some h, map_eq_pure_bind, bind_assoc, pure_bind]
  refine bind_congr fun answer => ?_
  cases answer with
  | ok value => rfl
  | error e => rfl

omit [LawfulMonad m] in
theorem call_of_get?_eq_none (h : registry.get? i.function = none) (identity : Text) :
    registry.call identity i = pure (.ok (.unregistered i)) := by
  rw [call, h]

theorem evaluate_of_get?_eq_none (h : registry.get? i.function = none) (identity : Text)
    (fallback : Fallback m) : registry.evaluate identity fallback i =
      Except.mapError .fallback <$> fallback identity i := by
  simp only [evaluate, call_of_get?_eq_none h, pure_bind, map_eq_pure_bind]
  refine bind_congr fun answer => ?_
  cases answer with
  | ok value => rfl
  | error e => rfl

variable (identity : Text) (fallback : Fallback m) (log : List Inquiry)

theorem run_noted_of_get?_eq_some {handler : Handler m}
    (h : registry.get? i.function = some handler) :
    (registry.noted.evaluate identity fallback.noted i).run log =
      (·, log ++ [.function i.function (.ofInvocation identity i)]) <$>
        registry.evaluate identity fallback i ∧
    (registry.noted.call identity i).run log =
      (·, log ++ [.function i.function (.ofInvocation identity i)]) <$>
        registry.call identity i := by
  have hnoted : registry.noted.get? i.function = some fun call =>
      Inquiry.noting (.function i.function call) (handler call) := by
    rw [get?_noted, h, Option.map_some]
  constructor
  · rw [evaluate_of_get?_eq_some hnoted, Inquiry.run_map_noting, evaluate_of_get?_eq_some h]
  · rw [call_of_get?_eq_some hnoted, Inquiry.run_map_noting, call_of_get?_eq_some h]

theorem run_noted_of_get?_eq_none (h : registry.get? i.function = none) :
    (registry.noted.evaluate identity fallback.noted i).run log =
      (·, log ++ [.fallback identity i]) <$> registry.evaluate identity fallback i ∧
    (registry.noted.call identity i).run log = (·, log) <$> registry.call identity i := by
  have hnoted : registry.noted.get? i.function = none := by
    rw [get?_noted, h, Option.map_none]
  constructor
  · rw [evaluate_of_get?_eq_none hnoted, Fallback.noted, Inquiry.run_map_noting,
      evaluate_of_get?_eq_none h]
  · rw [call_of_get?_eq_none hnoted, call_of_get?_eq_none h, map_pure]
    rfl

end

/-- A fallback that has no hold of the clock leaves it alone, and so does all that is done on the
way to it. -/
theorem run_evaluate_of_get?_eq_none {n : Type → Type} [Monad n] [LawfulMonad n]
    {registry : Registry (StateT Clock n)} {i : Invocation}
    (h : registry.get? i.function = none) (identity : Text) (script : Fallback n) (clock : Clock) :
    (registry.evaluate identity (fun identity i => StateT.lift (script identity i)) i).run clock =
      (fun answer => (answer.mapError .fallback, clock)) <$> script identity i := by
  rw [evaluate_of_get?_eq_none h, StateT.run_map, StateT.run_lift, bind_pure_comp, Functor.map_map]

/-- An invocation is routed once. The function of its name, if there is one, is called with the
invocation, the identity and the seed of the two, and what it answers is the answer, be it an error;
the fallback is not asked. Without such a function the fallback is asked with the invocation and the
identity, and the clock is not read. A mere call does the same, but hands the invocation back
instead of asking the fallback. And text that is no placeholder is answered by the error of its
parse. -/
theorem routed_once {m : Type → Type} [Monad m] [LawfulMonad m] (registry : Registry m)
    (identity : Text) (fallback : Fallback m) (log : List Inquiry) :
    (∀ i handler, registry.get? i.function = some handler → ∃ seed : Seed,
      seed.toNat = (if i.entropy.mixesIdentity then
        ((Checksum.crc32 identity.utf8).toNat + i.entropy.extra.toNat) % 2 ^ 64
        else i.entropy.extra.toNat) ∧
      registry.evaluate identity fallback i =
        Except.mapError .call <$> handler ⟨i, identity, seed⟩ ∧
      registry.call identity i =
        (fun answer => (answer.map .value).mapError .call) <$> handler ⟨i, identity, seed⟩ ∧
      (registry.noted.evaluate identity fallback.noted i).run log =
        (·, log ++ [.function i.function ⟨i, identity, seed⟩]) <$>
          registry.evaluate identity fallback i ∧
      (registry.noted.call identity i).run log =
        (·, log ++ [.function i.function ⟨i, identity, seed⟩]) <$> registry.call identity i) ∧
    (∀ i, registry.get? i.function = none →
      registry.evaluate identity fallback i = Except.mapError .fallback <$> fallback identity i ∧
      registry.call identity i = pure (.ok (.unregistered i)) ∧
      (registry.noted.evaluate identity fallback.noted i).run log =
        (·, log ++ [.fallback identity i]) <$> registry.evaluate identity fallback i ∧
      (registry.noted.call identity i).run log = (·, log) <$> registry.call identity i) ∧
    (∀ t, match Invocation.parse t with
      | .ok i => registry.evaluateText identity fallback t = registry.evaluate identity fallback i ∧
        registry.callText identity t = registry.call identity i
      | .error e => registry.evaluateText identity fallback t = pure (.error (.parse e)) ∧
        registry.callText identity t = pure (.error (.parse e)) ∧
        (registry.noted.evaluateText identity fallback.noted t).run log =
          pure (.error (.parse e), log) ∧
        (registry.noted.callText identity t).run log = pure (.error (.parse e), log)) ∧
    ∀ {n : Type → Type} [Monad n] [LawfulMonad n] (registry : Registry (StateT Clock n)) i,
      registry.get? i.function = none → ∀ (script : Fallback n) clock,
      (registry.evaluate identity (fun identity i => StateT.lift (script identity i)) i).run clock =
        (fun answer => (answer.mapError .fallback, clock)) <$> script identity i := by
  refine ⟨?_, ?_, ?_, ?_⟩
  · intro i handler hget
    obtain ⟨hevaluate, hcall⟩ := run_noted_of_get?_eq_some identity fallback log hget
    exact ⟨_, Seed.toNat_ofEntropy identity i.entropy,
      evaluate_of_get?_eq_some hget identity fallback, call_of_get?_eq_some hget identity,
      hevaluate, hcall⟩
  · intro i hget
    exact ⟨evaluate_of_get?_eq_none hget identity fallback, call_of_get?_eq_none hget identity,
      run_noted_of_get?_eq_none identity fallback log hget⟩
  · intro t
    unfold evaluateText callText
    cases Invocation.parse t with
    | ok i => exact ⟨rfl, rfl⟩
    | error e => exact ⟨rfl, rfl, rfl, rfl⟩
  · intro n _ _ registry i hget script clock
    exact run_evaluate_of_get?_eq_none hget identity script clock

/-- The function `A` fails, and `B` is not registered. -/
theorem routed_once_of_failing_function :
    let registry : Registry Id := ⟨[(['A'], fun call => .error (call.error (.failed ['!'])))]⟩
    let fallback : Fallback Id := fun identity _ => .ok identity
    let identity : Text := "123456789".toList
    let a : Invocation := ⟨"{{A()}(true,1)}".toList, ['A'], [], [], ⟨true, 1⟩⟩
    let b : Invocation := ⟨"{{B()}}".toList, ['B'], [], [], {}⟩
    let clock := Clock.fixed ⟨⟨2026, 2, 24⟩, 13, 7, 9, 0⟩
    (∃ seed : Seed, seed.toNat = 0xCBF43926 + 1 ∧
      (registry.noted.evaluate identity fallback.noted a).run [] =
        (.error (.call ⟨a.written, .failed ['!']⟩), [.function ['A'] ⟨a, identity, seed⟩])) ∧
    (registry.noted.evaluate identity fallback.noted b).run [] =
      (.ok identity, [.fallback identity b]) ∧
    (registry.noted.call identity b).run [] = (.ok (.unregistered b), []) ∧
    ((empty : Registry (StateT Clock Id)).evaluate identity
      (fun identity i => StateT.lift (fallback identity i)) b).run clock =
        (.ok identity, clock) := by
  intro registry fallback identity a b clock
  obtain ⟨hregistered, hunregistered, _, hclock⟩ := routed_once registry identity fallback []
  refine ⟨?_, ?_, ?_, ?_⟩
  · obtain ⟨seed, hseed, hevaluate, _, hnoted, _⟩ := hregistered a _ rfl
    have hcrc : (Checksum.crc32 identity.utf8).toNat = 0xCBF43926 := by decide +kernel
    rw [hcrc] at hseed
    rw [hevaluate] at hnoted
    exact ⟨seed, hseed, hnoted⟩
  · obtain ⟨hevaluate, _, hnoted, _⟩ := hunregistered b rfl
    rw [hevaluate] at hnoted
    exact hnoted
  · obtain ⟨_, hcall, _, hnoted⟩ := hunregistered b rfl
    rw [hcall] at hnoted
    exact hnoted
  · exact hclock empty b rfl fallback clock

end Registry
end Placeholders
