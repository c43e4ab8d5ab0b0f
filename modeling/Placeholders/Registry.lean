import Placeholders.Function.RandomDecimal
import Placeholders.Function.ShiftedDate
import Placeholders.Function.UniqueId

/-!
Registries: functions by their names, in the order of the names.
-/

namespace Placeholders

structure Registry (m : Type → Type) where
  entries : List (Text × Handler m)

inductive RegistrationError where
  | emptyName
deriving Repr, DecidableEq

def RegistrationError.message : RegistrationError → Text
  | emptyName => "function name must not be empty".toList

namespace Registry

variable {m : Type → Type}

def empty : Registry m := ⟨[]⟩

/-- Puts an entry in its place, over an entry of the same name. -/
def insertEntry (name : Text) (handler : Handler m) :
    List (Text × Handler m) → List (Text × Handler m)
  | [] => [(name, handler)]
  | (other, h) :: entries =>
    if name = other then (name, handler) :: entries
    else if name < other then (name, handler) :: (other, h) :: entries
    else (other, h) :: insertEntry name handler entries

/-- Names are trimmed before they are registered. -/
def register (registry : Registry m) (name : Text) (handler : Handler m) :
    Except RegistrationError (Registry m) :=
  if name.trim = [] then .error .emptyName
  else .ok ⟨insertEntry name.trim handler registry.entries⟩

def get? (registry : Registry m) (name : Text) : Option (Handler m) :=
  registry.entries.lookup name

def contains (registry : Registry m) (name : Text) : Bool := (registry.get? name).isSome

def names (registry : Registry m) : List Text := registry.entries.map Prod.fst

/-- The functions that a standard registry begins with. -/
def standardEntries [Monad m] [MonadClock m] : List (Text × Handler m) :=
  [("Fenix_TodayShiftDay".toList, ShiftedDate.handler),
    ("Fenix_ControlledUniqueId".toList, UniqueId.handler),
    ("Fenix_RandomPositiveDecimalValue".toList, RandomDecimal.handler),
    ("Fenix_RandomPositiveDecimalValue_Sum".toList, RandomDecimal.sumHandler)]

def standard [Monad m] [MonadClock m] : Registry m :=
  ⟨standardEntries.foldl (fun entries (name, handler) => insertEntry name handler entries) []⟩

/-- The text of a registry for diagnosis. -/
def describe (registry : Registry m) : Text :=
  "FunctionRegistry \x7b functions: ".toList ++
    Text.bracketed (registry.names.map Text.quoted) ++ " \x7d".toList

end Registry
end Placeholders
