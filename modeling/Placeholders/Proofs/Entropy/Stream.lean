import Mathlib.Logic.Function.Iterate
import Placeholders.Entropy.Stream

/-!
The draws of a random stream in their order.
-/

namespace Placeholders
namespace RandomStream

/-- The stream after some draws. -/
def after (s : RandomStream) (n : Nat) : RandomStream := (fun s : RandomStream => s.next.2)^[n] s

/-- The word of a draw, by the number of draws before it. -/
def draw (s : RandomStream) (n : Nat) : UInt64 := (s.after n).next.1

theorem after_after (s : RandomStream) (m n : Nat) : (s.after m).after n = s.after (m + n) := by
  rw [Nat.add_comm]
  exact (Function.iterate_add_apply _ n m s).symm

theorem draw_after (s : RandomStream) (m n : Nat) : (s.after m).draw n = s.draw (m + n) := by
  rw [draw, after_after, draw]

end RandomStream
end Placeholders
