import Placeholders.Registry.Suggestion
import Placeholders.Text.Table

/-!
The table of registered functions with the indexes and arguments that they take.
-/

namespace Placeholders

/-- Indexes and arguments of a standard function. -/
def usage? (name : Text) : Option (Text × Text) :=
  let widths := "maxIntegerDigits, numberOfDecimals[, integerPad, fractionPad]".toList
  [("Fenix_TodayShiftDay".toList, "none".toList, "[dayOffset]".toList),
    ("Fenix_ControlledUniqueId".toList, "0 or 1".toList, "text with %tokens%".toList),
    ("Fenix_RandomPositiveDecimalValue".toList, "0 or 1".toList, widths),
    ("Fenix_RandomPositiveDecimalValue_Sum".toList, "1 or more".toList, widths)].lookup name

def listingRow (name : Text) : List Text :=
  let (indexes, arguments) := (usage? name).getD (['?'], ['?'])
  ['{' :: '{' :: dottedName name ++ "(...)\x7d\x7d".toList, indexes, arguments]

def listing (names : List Text) : Text :=
  Text.Table.draw ["Placeholder".toList, "Indexes".toList, "Arguments".toList]
    (names.map listingRow)

end Placeholders
