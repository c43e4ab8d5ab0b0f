import Placeholders.Calendar.Clock
import Placeholders.Function.Call

/-!
The date of today, moved by a number of days. The time of day does not matter.
-/

namespace Placeholders.ShiftedDate

/-- The argument with the number of days, and the number. -/
def offset (call : Call) : Except CallError (Text × Int64) :=
  if call.invocation.indexes ≠ [] then
    .error (call.error (.indexUnsupported call.invocation.indexes))
  else match call.invocation.arguments with
    | [] => .ok (['0'], 0)
    | [argument] => (call.integer argument).map fun days => (argument, days)
    | _ => .error (call.countError .atMostOne)

/-- Neither the duration nor the date may be too large. -/
def shifted? (now : Instant) (days : Int64) : Option Text := do
  let duration ← Duration.ofDays? days.toInt
  let date ← now.date.add? duration
  pure (({ now with date } : Instant).write TimeField.isoDate)

/-- Reads the clock once the call is found good. -/
def handler {m : Type → Type} [Monad m] [MonadClock m] : Handler m := fun call =>
  match offset call with
  | .error e => pure (.error e)
  | .ok (argument, days) => do
    let now ← MonadClock.now
    match shifted? now days with
    | some date => pure (.ok date)
    | none => pure (.error (call.error (.outOfRange argument .dateOutsideCalendar)))

end Placeholders.ShiftedDate
