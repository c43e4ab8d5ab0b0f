import Placeholders.Document
import Placeholders.Registry.Suggestion

/-!
What a check finds in documents: malformed placeholders, and functions that are not registered,
which are errors only to a strict check.
-/

namespace Placeholders

structure Finding where
  file : Text
  start : Nat
  stop : Nat
  placeholder : Text
  message : Text
  help : Option Text
  isError : Bool
deriving Repr, DecidableEq

namespace Finding

variable {m : Type → Type} (registry : Registry m) (strict : Bool) (file : Text)

/-- The message, help and weight of what is wrong with a placeholder. -/
def complaint? : Meaning → Option (Text × Option Text × Bool)
  | .malformed e => some (e.message, none, true)
  | .function i =>
    if registry.contains i.function then none
    else some ("no native function '".toList ++ i.function ++ ['\''],
      offer? (registry.suggestions i.function), strict)
  | .testData _ => none

def ofSegment? : Segment → Option Finding
  | .literal _ => none
  | .placeholder start o =>
    (complaint? registry strict o.meaning).map fun (message, help, isError) =>
      let (start, stop) := Segment.span start o
      ⟨file, start, stop, o.written, message, help, isError⟩

def ofDocument (document : Text) : List Finding :=
  (Segment.scan document).filterMap (ofSegment? registry strict file)

/-- The findings of named documents, in their order. -/
def ofDocuments (documents : List (Text × Text)) : List Finding :=
  documents.flatMap fun (file, document) => ofDocument registry strict file document

end Finding

def Segment.isPlaceholder : Segment → Bool
  | literal _ => false
  | placeholder .. => true

/-- The number of placeholders of a document, good or bad. -/
def placeholderCount (document : Text) : Nat :=
  ((Segment.scan document).filter Segment.isPlaceholder).length

end Placeholders
