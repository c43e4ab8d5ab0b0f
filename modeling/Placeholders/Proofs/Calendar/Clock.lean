import Placeholders.Calendar.Clock

/-!
Runs with a clock. Actions for the elements of a list happen one after another, each with the clock
as those before it have left it, and every reading moves the clock on by one.
-/

namespace Placeholders

namespace Clock

section
variable {α β : Type} (f : α → StateM Clock β)

/-- The clock after some actions, one after another. -/
def after (xs : List α) (clock : Clock) : Clock := (StateT.run (xs.mapM f) clock).2

theorem run_mapM_cons (x : α) (xs : List α) (clock : Clock) : clock.run ((x :: xs).mapM f) =
    clock.run (f x) :: Clock.run (StateT.run (f x) clock).2 (xs.mapM f) := by
  rw [List.mapM_cons]
  rfl

theorem after_cons (x : α) (xs : List α) (clock : Clock) :
    clock.after f (x :: xs) = Clock.after f xs (StateT.run (f x) clock).2 := by
  rw [after, List.mapM_cons]
  rfl

theorem length_run_mapM (xs : List α) (clock : Clock) :
    (clock.run (xs.mapM f)).length = xs.length := by
  induction xs generalizing clock with
  | nil => rfl
  | cons x xs ih => rw [run_mapM_cons, List.length_cons, ih, List.length_cons]

theorem getElem?_run_mapM {xs : List α} {k : Nat} {x : α} (hx : xs[k]? = some x) (clock : Clock) :
    (clock.run (xs.mapM f))[k]? = some ((clock.after f (xs.take k)).run (f x)) := by
  induction xs generalizing clock k with
  | nil => contradiction
  | cons y xs ih =>
      rw [run_mapM_cons]
      cases k with
      | zero =>
          obtain rfl := Option.some.inj hx
          rfl
      | succ k =>
          rw [List.getElem?_cons_succ, List.take_succ_cons, after_cons]
          exact ih hx _

/-- The actions for the elements of a list all happen, each at a time of its own. -/
theorem exists_run_mem_mapM {xs : List α} {x : α} (hx : x ∈ xs) (clock : Clock) :
    ∃ time : Clock, time.run (f x) ∈ clock.run (xs.mapM f) := by
  obtain ⟨k, hk⟩ := List.getElem?_of_mem hx
  exact ⟨_, List.mem_of_getElem? (getElem?_run_mapM f hk clock)⟩

/-- The clock counts those of the actions that read it, if each reads it once or not at all. -/
theorem after_eq {p : α → Prop} [DecidablePred p]
    (h : ∀ x clock, (StateT.run (f x) clock).2 =
      { clock with readings := clock.readings + if p x then 1 else 0 })
    (xs : List α) (clock : Clock) :
    clock.after f xs = { clock with readings := clock.readings + xs.countP p } := by
  induction xs generalizing clock with
  | nil => rfl
  | cons x xs ih =>
      rw [after_cons, ih, h, List.countP_cons]
      simp only [decide_eq_true_eq, Nat.add_assoc, Nat.add_comm (List.countP _ xs)]

end

end Clock

/-- A result that is known at once, or that one reading of the clock gives. -/
inductive Answer (α : Type) where
  | known (a : α)
  | timed (f : Instant → α)

namespace Answer

variable {α β : Type}

/-- The result, if the clock shows this instant when it is read. -/
def valueAt (now : Instant) : Answer α → α
  | known a => a
  | timed f => f now

/-- How often the clock is read. -/
def readings : Answer α → Nat
  | known _ => 0
  | timed _ => 1

def map (f : α → β) : Answer α → Answer β
  | known a => known (f a)
  | timed g => timed fun now => f (g now)

/-- Gives the result in any setting that has a clock. -/
def give {m : Type → Type} [Monad m] [MonadClock m] : Answer α → m α
  | known a => pure a
  | timed f => do
    let now ← MonadClock.now
    pure (f now)

theorem readings_map (f : α → β) (answer : Answer α) :
    (answer.map f).readings = answer.readings := by
  cases answer with
  | known a => rfl
  | timed g => rfl

theorem readings_eq {p : Prop} [Decidable p] {answer : Answer α}
    (htimed : p → ∃ f, answer = timed f) (hknown : ¬ p → ∃ a, answer = known a) :
    answer.readings = if p then 1 else 0 := by
  split
  · next h =>
    obtain ⟨f, rfl⟩ := htimed h
    rfl
  · next h =>
    obtain ⟨a, rfl⟩ := hknown h
    rfl

theorem map_give {m : Type → Type} [Monad m] [LawfulMonad m] [MonadClock m] (f : α → β)
    (answer : Answer α) : f <$> answer.give = (answer.map f).give (m := m) := by
  cases answer with
  | known a => exact map_pure f a
  | timed g => simp only [give, map, map_eq_pure_bind, bind_assoc, pure_bind]

theorem run_give (clock : Clock) (answer : Answer α) :
    StateT.run (answer.give : StateM Clock α) clock =
      (answer.valueAt (clock.instantAt clock.readings),
        { clock with readings := clock.readings + answer.readings }) := by
  cases answer with
  | known a => rfl
  | timed f => rfl

end Answer
end Placeholders
