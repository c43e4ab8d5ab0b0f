import Placeholders.Placeholder.Reader

/-!
Invocations: the function name, indexes, arguments and entropy control that a placeholder stands
for, and what can be wrong with a text that should hold one.
-/

namespace Placeholders

/-- Where the seed of a call comes from: the identity of the run, if it is mixed in, and a number. -/
structure Entropy where
  mixesIdentity : Bool := true
  extra : UInt64 := 0
deriving Repr, DecidableEq

structure Invocation where
  /-- The placeholder as it stands in the text. -/
  written : Text
  function : Text
  indexes : List Int64
  arguments : List Text
  entropy : Entropy
deriving Repr, DecidableEq

/-- The numbers that a placeholder can hold. -/
inductive NumberPart where
  | index
  | extraEntropy
deriving Repr, DecidableEq

inductive ParseError where
  | noPlaceholder (text : Text)
  | malformed (placeholder token : Text) (part : NumberPart)
deriving Repr, DecidableEq

def NumberPart.complaint : NumberPart → Text
  | index => "array index is not an integer".toList
  | extraEntropy => "extra entropy is not an unsigned 64-bit integer".toList

def ParseError.message : ParseError → Text
  | noPlaceholder text => "no match found for '".toList ++ text ++ ['\'']
  | malformed placeholder token part =>
    "malformed placeholder '".toList ++ placeholder ++ "': ".toList ++ part.complaint ++
      " '".toList ++ token ++ ['\'']

/-- Names are written with dots and looked up with underscores. -/
def lookupName (name : Text) : Text :=
  name.map fun c => if c = '.' then '_' else c

/-- The trimmed pieces between commas; blank text without a comma holds no argument. -/
def argumentsOf (t : Text) : List Text :=
  match (Text.splitOn ',' t).map Text.trim with
  | [[]] => []
  | arguments => arguments

/-- The numbers of the elements that are not blank, or the first element that is no number. -/
def indexesOf : List Text → Except Text (List Int64)
  | [] => .ok []
  | element :: elements =>
    let element := element.trim
    if element = [] then indexesOf elements
    else match Numeral.signed64? element with
      | none => .error element
      | some n => (indexesOf elements).map (n :: ·)

def EntropyClause.read (e : EntropyClause) : Except Text Entropy :=
  match e.extra with
  | none => .ok ⟨e.mixesIdentity, 0⟩
  | some (_, digits) =>
    match Numeral.word64? digits with
    | none => .error digits
    | some extra => .ok ⟨e.mixesIdentity, extra⟩

namespace Placeholder

def readEntropy (p : Placeholder) : Except Text Entropy :=
  match p.entropy with
  | none => .ok {}
  | some e => e.read

/-- Indexes are judged before the extra entropy. -/
def invocation (p : Placeholder) : Except ParseError Invocation :=
  match indexesOf (p.indexes.getD []) with
  | .error token => .error (.malformed p.written token .index)
  | .ok indexes =>
    match p.readEntropy with
    | .error token => .error (.malformed p.written token .extraEntropy)
    | .ok entropy =>
      .ok ⟨p.written, lookupName p.name, indexes, argumentsOf p.arguments, entropy⟩

end Placeholder

/-- Reads the first placeholder of a text. -/
def Invocation.parse (t : Text) : Except ParseError Invocation :=
  match Placeholder.find? t with
  | none => .error (.noPlaceholder t)
  | some p => p.invocation

end Placeholders
