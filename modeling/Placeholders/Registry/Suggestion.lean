import Placeholders.Registry
import Placeholders.Text.EditDistance

/-!
Suggestions for a name that is not registered: the nearest registered names.
-/

namespace Placeholders

/-- How many edits away a suggestion may be. -/
def editLimit (name : Text) : Nat := if name.byteSize ≤ 3 then 1 else 2

/-- Those near enough of some names, with their distances. -/
def nearNames (name : Text) (names : List Text) : List (Nat × Text) :=
  (names.map fun other => (name.editDistance other, other)).filter fun (distance, _) =>
    0 < distance && distance ≤ editLimit name

/-- At most three names, the nearest first and equally near ones in the order of names. -/
def Registry.suggestions {m : Type → Type} (registry : Registry m) (name : Text) : List Text :=
  (((nearNames name registry.names).mergeSort fun a b => a.1 ≤ b.1).take 3).map Prod.snd

/-- A registered name as it is written in a placeholder. -/
def dottedName (name : Text) : Text := name.map fun c => if c = '_' then '.' else c

/-- A question that offers suggestions, if there are any. -/
def offer? (suggestions : List Text) : Option Text :=
  if suggestions = [] then none
  else
    let quoted := suggestions.map fun name => '\'' :: dottedName name ++ ['\'']
    some ("did you mean ".toList ++ Text.join " or ".toList quoted ++ ['?'])

end Placeholders
