import Placeholders.Calendar.Instant

/-!
Clocks. What needs the time asks for it in a monad; a clock as a state knows the instant of every
reading and counts the readings.
-/

namespace Placeholders

class MonadClock (m : Type → Type) where
  now : m Instant

structure Clock where
  /-- The instant that a reading shows, by the number of readings before it. -/
  instantAt : Nat → Instant
  readings : Nat := 0

namespace Clock

/-- A clock that moves by some seconds after each reading. -/
def ticking (start : Instant) (step : Int) : Clock where
  instantAt n := start.addSeconds (n * step)

/-- Sets a ticking clock to another time. The count of readings goes on. -/
def setTo (start : Instant) (step : Int) (c : Clock) : Clock :=
  { c with instantAt := fun n => start.addSeconds ((n - c.readings : Nat) * step) }

def fixed (instant : Instant) : Clock where
  instantAt _ := instant

def read (c : Clock) : Instant × Clock :=
  (c.instantAt c.readings, { c with readings := c.readings + 1 })

instance : MonadClock (StateM Clock) := ⟨fun c => c.read⟩

/-- What an action gives that reads this clock. -/
def run {α : Type} (clock : Clock) (action : StateM Clock α) : α := (StateT.run action clock).1

@[simp] theorem run_pure {α : Type} (clock : Clock) (a : α) : clock.run (pure a) = a := rfl

@[simp] theorem run_map {α β : Type} (clock : Clock) (f : α → β) (action : StateM Clock α) :
    clock.run (f <$> action) = f (clock.run action) := rfl

end Clock

/-- Time stands still. -/
instance : MonadClock (ReaderM Instant) := ⟨fun instant => instant⟩

end Placeholders
