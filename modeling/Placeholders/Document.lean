import Placeholders.Resolution
import Placeholders.Segment

/-!
Resolution of documents. Literal text stays, and every placeholder gives a value or an error in its
place; a value is not searched for placeholders again.
-/

namespace Placeholders

inductive DocumentError where
  | resolution (e : ResolutionError)
  | invalidReference (placeholder : Text)
  | missingColumn (placeholder column : Text)
deriving Repr, DecidableEq

def DocumentError.message : DocumentError → Text
  | resolution e => e.message
  | invalidReference placeholder =>
    '\'' :: placeholder ++ "' is not a valid test data reference".toList
  | missingColumn _ column => "test data column '".toList ++ column ++ "' does not exist".toList

/-- The values of the columns of test data. -/
abbrev ColumnValues := Text → Option Text

def ColumnValues.empty : ColumnValues := fun _ => none

inductive ResolvedPart where
  | literal (t : Text)
  | placeholder (start : Nat) (written : Text) (result : Except DocumentError Text)

namespace ResolvedPart

def text : ResolvedPart → Text
  | literal t => t
  | placeholder _ _ (.ok value) => value
  | placeholder _ _ (.error e) => e.message

/-- The bytes of the source that a failed placeholder covers. -/
def failure? : ResolvedPart → Option (Nat × Nat)
  | placeholder start written (.error _) => some (start, start + written.byteSize)
  | _ => none

end ResolvedPart

def ColumnValues.answer (data : ColumnValues) (written : Text) :
    Option Text → Except DocumentError Text
  | none => .error (.invalidReference written)
  | some column =>
    match data column with
    | some value => .ok value
    | none => .error (.missingColumn written column)

/-- All that a resolution of documents depends on. -/
structure Resolver (m : Type → Type) where
  registry : Registry m
  identity : Text
  fallback : Fallback m
  data : ColumnValues

namespace Resolver

variable {m : Type → Type} [Monad m] (r : Resolver m)

def resolveOccurrence (o : Occurrence) : m (Except DocumentError Text) :=
  match o.meaning with
  | .function i => do
    match ← r.registry.evaluate r.identity r.fallback i with
    | .ok value => pure (.ok value)
    | .error e => pure (.error (.resolution e))
  | .testData column => pure (r.data.answer o.written column)
  | .malformed e => pure (.error (.resolution (.parse e)))

def resolveSegment : Segment → m ResolvedPart
  | .literal t => pure (.literal t)
  | .placeholder start o => do
    let result ← r.resolveOccurrence o
    pure (.placeholder start o.written result)

/-- Resolves the placeholders of a document one after another. -/
def resolve (document : Text) : m (List ResolvedPart) :=
  (Segment.scan document).mapM r.resolveSegment

end Resolver

namespace ResolvedPart

/-- The document with every placeholder replaced by its value or its error message. -/
def render (segments : List ResolvedPart) : Text := segments.flatMap text

def failedSpans (segments : List ResolvedPart) : List (Nat × Nat) := segments.filterMap failure?

end ResolvedPart
end Placeholders
