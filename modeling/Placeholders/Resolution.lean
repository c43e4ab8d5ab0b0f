import Placeholders.Registry

/-!
Resolution of single placeholders. A registered function answers for itself, even with an error;
only a name that is not registered goes to the fallback.
-/

namespace Placeholders

inductive FallbackError where
  | unsupported (placeholder function : Text)
  | failed (placeholder message : Text)
deriving Repr, DecidableEq

def FallbackError.message : FallbackError → Text
  | unsupported placeholder function =>
    "unsupported function '".toList ++ function ++ "' in '".toList ++ placeholder ++ ['\'']
  | failed placeholder message =>
    '\'' :: placeholder ++ "' failed in fallback: ".toList ++ message

/-- What answers for functions that are not registered, with the identity of the run. -/
abbrev Fallback (m : Type → Type) := Text → Invocation → m (Except FallbackError Text)

/-- The fallback that knows no function. -/
def Fallback.none {m : Type → Type} [Monad m] : Fallback m := fun _ i =>
  pure (.error (.unsupported i.written i.function))

inductive ResolutionError where
  | parse (e : ParseError)
  | call (e : CallError)
  | fallback (e : FallbackError)
deriving Repr, DecidableEq

def ResolutionError.message : ResolutionError → Text
  | parse e => e.message
  | call e => e.message
  | fallback e => e.message

inductive CallResult where
  | value (t : Text)
  | unregistered (i : Invocation)
deriving Repr, DecidableEq

namespace Registry

variable {m : Type → Type} [Monad m] (registry : Registry m) (identity : Text)

/-- Calls the function of an invocation, if it is registered. -/
def call (i : Invocation) : m (Except ResolutionError CallResult) :=
  match registry.get? i.function with
  | none => pure (.ok (.unregistered i))
  | some handler => do
    match ← handler (.ofInvocation identity i) with
    | .ok value => pure (.ok (.value value))
    | .error e => pure (.error (.call e))

/-- Calls the function of the first placeholder in a text. -/
def callText (t : Text) : m (Except ResolutionError CallResult) :=
  match Invocation.parse t with
  | .error e => pure (.error (.parse e))
  | .ok i => registry.call identity i

variable (fallback : Fallback m)

/-- The value of an invocation, from its function or from the fallback. -/
def evaluate (i : Invocation) : m (Except ResolutionError Text) := do
  match ← registry.call identity i with
  | .error e => pure (.error e)
  | .ok (.value value) => pure (.ok value)
  | .ok (.unregistered i) =>
    match ← fallback identity i with
    | .ok value => pure (.ok value)
    | .error e => pure (.error (.fallback e))

def evaluateText (t : Text) : m (Except ResolutionError Text) :=
  match Invocation.parse t with
  | .error e => pure (.error (.parse e))
  | .ok i => registry.evaluate identity fallback i

end Registry
end Placeholders
