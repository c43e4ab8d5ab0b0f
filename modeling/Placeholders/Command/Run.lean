import Placeholders.Command
import Placeholders.Document.Finding
import Placeholders.Json
import Placeholders.Registry.Listing

/-!
Running commands. A command answers in text or in JSON; its exit code tells good input, bad input
and files that cannot be read apart. Only functions that are called read the clock; a check calls
none.
-/

namespace Placeholders.Command

def okCode : Nat := 0

def badInputCode : Nat := 65

def unreadableCode : Nat := 70

def line (t : Text) : Text := t ++ ['\n']

def success (stdout : Text) : Outcome := ⟨okCode, stdout, []⟩

/-- Bad input leaves nothing on the standard output. -/
def failure (stderr : Text) : Outcome := ⟨badInputCode, [], stderr⟩

def complain (message : Text) : Text := line ("error: ".toList ++ message)

def errorReport (json : Bool) (message : Text) : Text :=
  if json then line (Json.object [("error".toList, .string message)]).compact else complain message

/-- The value of an invocation as the outcome of a command. -/
def reportValue (identity : Text) (i : Invocation) (value : Text) (json : Bool) : Outcome :=
  success <| line <|
    if json then
      (Json.object
        [("placeholder".toList, .string i.written),
          ("function".toList, .string i.function),
          ("seed".toList, .ofNat (Seed.ofEntropy identity i.entropy).toNat),
          ("result".toList, .string value)]).pretty
    else value

def reportUnregistered (function : Text) (suggestions : List Text) (json : Bool) : Outcome :=
  failure <|
    if json then
      line (Json.object
        [("error".toList, .string "not handled".toList),
          ("function".toList, .string function),
          ("suggestions".toList, .ofList suggestions)]).pretty
    else
      line ("warning: no native function '".toList ++ function ++ ['\'']) ++
        ((offer? suggestions).map fun help => line (' ' :: ' ' :: help)).getD []

/-- A label in bold type, in a column of its own. -/
def label (name : Text) : Text :=
  "\x1b[1m".toList ++ name ++ "\x1b[0m".toList

def labelled (name value : Text) : Text := line (label (name.padRight 11 ' ') ++ value)

def describeEntropy (e : Entropy) : Text :=
  (if e.mixesIdentity then "execution identity + ".toList else "fixed ".toList) ++
    Numeral.ofNat e.extra.toNat

def describe (i : Invocation) : Text :=
  labelled "matched".toList i.written ++
    labelled "function".toList i.function ++
    labelled "indexes".toList (writeIndexes i.indexes) ++
    labelled "arguments".toList (writeArguments i.arguments) ++
    labelled "entropy".toList (describeEntropy i.entropy)

def invocationJson (i : Invocation) : Json :=
  .object
    [("raw_text".toList, .string i.written),
      ("function_name".toList, .string i.function),
      ("array_indexes".toList, .array (i.indexes.map fun index => .number index.toInt)),
      ("arguments".toList, .ofList i.arguments),
      ("use_execution_entropy".toList, .bool i.entropy.mixesIdentity),
      ("extra_entropy".toList, .ofNat i.entropy.extra.toNat)]

def explain (t : Text) (json : Bool) : Outcome :=
  match Invocation.parse t with
  | .error e => failure (errorReport json e.message)
  | .ok i => success (if json then line (invocationJson i).pretty else describe i)

def findingJson (f : Finding) : Json :=
  .object <|
    [("file".toList, .string f.file),
      ("start".toList, .ofNat f.start),
      ("end".toList, .ofNat f.stop),
      ("placeholder".toList, .string f.placeholder),
      ("message".toList, .string f.message)] ++
    (match f.help with
      | none => []
      | some help => [("help".toList, .string help)]) ++
    [("error".toList, .bool f.isError)]

def reportFinding (f : Finding) : Text := line (f.file ++ ": ".toList ++ f.message)

/-- The line that a check without errors ends with. -/
def checkedLine (placeholders files : Nat) : Text :=
  line ("\x1b[1m\x1b[32mok:\x1b[39m\x1b[0m ".toList ++ Numeral.ofNat placeholders ++
    " placeholders in ".toList ++ Numeral.ofNat files ++ " files".toList)

/-- Findings that are no errors do no harm. -/
def reportFindings (findings : List Finding) (placeholders files : Nat) (json : Bool) : Outcome :=
  let errors := findings.filter Finding.isError
  { code := if errors = [] then okCode else badInputCode
    stdout :=
      if json then line (Json.array (findings.map findingJson)).pretty
      else if errors = [] then checkedLine placeholders files
      else []
    stderr :=
      if json then []
      else
        findings.flatMap reportFinding ++
          (if errors = [] then []
            else complain (Numeral.ofNat errors.length ++ " problems found".toList)) }

/-- The last value of a column counts. -/
def dataSource (data : List (Text × Text)) : ColumnValues := fun column =>
  data.reverse.lookup column

/-- A placeholder that a document cannot be rendered with. -/
structure Failure where
  start : Nat
  stop : Nat
  placeholder : Text
  message : Text
deriving Repr, DecidableEq

def failure? : ResolvedPart → Option Failure
  | .placeholder start written (.error e) =>
    some ⟨start, start + written.byteSize, written, e.message⟩
  | _ => none

def failures (segments : List ResolvedPart) : List Failure := segments.filterMap failure?

def failureJson (f : Failure) : Json :=
  .object
    [("start".toList, .ofNat f.start),
      ("end".toList, .ofNat f.stop),
      ("placeholder".toList, .string f.placeholder),
      ("error".toList, .string f.message)]

/-- A resolved document as the outcome of a command. -/
def reportResolved (segments : List ResolvedPart) (json : Bool) : Outcome :=
  let text := ResolvedPart.render segments
  { code := if failures segments = [] then okCode else badInputCode
    stdout :=
      if json then
        line (Json.object
          [("text".toList, .string text),
            ("failures".toList, .array ((failures segments).map failureJson))]).pretty
      else text
    stderr := if json then [] else (failures segments).flatMap fun f => complain f.message }

/-- The contents of files with their names, or the first name that has none. -/
def readFiles (contents : Text → Option Text) : List Text → Except Text (List (Text × Text))
  | [] => .ok []
  | file :: files =>
    match contents file with
    | none => .error file
    | some document => (readFiles contents files).map ((file, document) :: ·)

section
variable {m : Type → Type} [Monad m] (registry : Registry m) (identity : Text)

def evaluate (t : Text) (json : Bool) : m Outcome :=
  match Invocation.parse t with
  | .error e => pure (failure (errorReport json e.message))
  | .ok i => do
    match ← registry.call identity i with
    | .error e => pure (failure (errorReport json e.message))
    | .ok (.value value) => pure (reportValue identity i value json)
    | .ok (.unregistered i) =>
      pure (reportUnregistered i.function (registry.suggestions i.function) json)

/-- Checks named documents. -/
def checkDocuments (documents : List (Text × Text)) (json strict : Bool) : Outcome :=
  reportFindings (Finding.ofDocuments registry strict documents)
    (documents.foldl (fun count (_, document) => count + placeholderCount document) 0)
    documents.length json

def resolveDocument (document : Text) (data : List (Text × Text)) : m (List ResolvedPart) :=
  Resolver.resolve ⟨registry, identity, Fallback.none, dataSource data⟩ document

/-- Runs a command on the contents of its files, or names a file that cannot be read. -/
def execute (contents : Text → Option Text) : Command → m (Except Text Outcome)
  | eval t json => .ok <$> evaluate registry identity t json
  | parse t json => pure (.ok (explain t json))
  | check files json strict =>
    pure ((readFiles contents files).map fun documents =>
      checkDocuments registry documents json strict)
  | render file data json =>
    match contents file with
    | none => pure (.error file)
    | some document =>
      (fun segments => .ok (reportResolved segments json)) <$>
        resolveDocument registry identity document data
  | functions => pure (.ok (success (line (listing registry.names))))

end

/-- The exit code of a run. -/
def exitCode : Except Text Outcome → Nat
  | .error _ => unreadableCode
  | .ok outcome => outcome.code

/-- The standard functions at a time that stands still. -/
def standardFunctions : Registry (ReaderM Instant) := Registry.standard

/-- Runs a command with the standard functions while the time stands still. -/
def run (identity : Text) (now : Instant) (contents : Text → Option Text) (c : Command) :
    Except Text Outcome :=
  (Clock.fixed now).run (c.execute Registry.standard identity contents)

end Placeholders.Command
