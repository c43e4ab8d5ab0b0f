import Placeholders.Text

/-!
Sets of characters as runs of code points, the form in which properties of characters are tabled.
-/

namespace Placeholders

/-- The first and the last code point of each run, in ascending order. -/
abbrev CharRuns := List (Nat × Nat)

namespace CharRuns

def covers (runs : CharRuns) (c : Char) : Bool :=
  runs.any fun (first, last) => first ≤ c.toNat && c.toNat ≤ last

end CharRuns
end Placeholders
