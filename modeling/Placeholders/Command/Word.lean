import Placeholders.Command

/-!
The words of a command line as options and operands. An option takes its value from its own word or
from the next one; after two hyphens all words are operands.
-/

namespace Placeholders.Command

inductive OptionName where
  | color
  | verbose
  | executionId
  | now
  | json
  | strict
  | data
  | help
  | version
deriving Repr, DecidableEq

namespace OptionName

def long : OptionName → Text
  | color => "color".toList
  | verbose => "verbose".toList
  | executionId => "execution-id".toList
  | now => "now".toList
  | json => "json".toList
  | strict => "strict".toList
  | data => "data".toList
  | help => "help".toList
  | version => "version".toList

def short? : OptionName → Option Char
  | verbose => some 'v'
  | data => some 'd'
  | help => some 'h'
  | version => some 'V'
  | _ => none

def takesValue : OptionName → Bool
  | color | executionId | now | data => true
  | _ => false

end OptionName

/-- What stands on one level of a command line: options and operands, or, on the first level,
options and the name of a command. -/
structure Level where
  options : List OptionName
  commands : List Text
  maxOperands : Option Nat

/-- An option or an operand as given. A value in the next word is open until another word settles
it, and so is an operand. -/
inductive Given where
  | option (name : OptionName) (value : Option Text) (isOpen : Bool)
  | operand (t : Text)
deriving Repr, DecidableEq

/-- How a level ends: with the line, with a word that has no place in it, or with a command and the
words after it. -/
inductive Ending where
  | complete
  | misplaced
  | command (name : Text) (rest : List Text)
deriving Repr, DecidableEq

/-- The options of a word that begins with one hyphen, and the option that waits for a value. -/
inductive Cluster where
  | complete (options : List Given)
  | awaiting (options : List Given) (name : OptionName)
  | unknown (options : List Given)

namespace Level

def long? (level : Level) (name : Text) : Option OptionName :=
  level.options.find? fun o => o.long == name

def short? (level : Level) (c : Char) : Option OptionName :=
  level.options.find? fun o => o.short? == some c

/-- An equals sign before the value of a short option does not belong to it. -/
def cluster (level : Level) : Text → Cluster
  | [] => .complete []
  | c :: t =>
    match level.short? c with
    | none => .unknown []
    | some name =>
      if name.takesValue then
        match t with
        | [] => .awaiting [] name
        | '=' :: value => .complete [.option name (some value) false]
        | value => .complete [.option name (some value) false]
      else
        let flag := Given.option name none false
        match cluster level t with
        | .complete options => .complete (flag :: options)
        | .awaiting options awaited => .awaiting (flag :: options) awaited
        | .unknown options => .unknown (flag :: options)

/-- The option of a word after two hyphens. -/
def longOption (level : Level) (t : Text) : Cluster :=
  let (name, value) := match Text.cutAt ['='] t with
    | none => (t, none)
    | some (name, value) => (name, some value)
  match level.long? name, value with
  | none, _ => .unknown []
  | some name, some value =>
    if name.takesValue then .complete [.option name (some value) false] else .unknown []
  | some name, none =>
    if name.takesValue then .awaiting [] name else .complete [.option name none false]

/-- Where the reading of a level stands. -/
inductive State where
  | free
  /-- An option waits for its value. -/
  | awaiting (name : OptionName)
  /-- Only operands follow. -/
  | operandsOnly
deriving Repr, DecidableEq

/-- What is missing when an option still waits. -/
def State.unsettled : State → List Given
  | awaiting name => [.option name none true]
  | _ => []

/-- Whether one more operand may follow `count` of them. -/
def admits (level : Level) (count : Nat) : Bool :=
  match level.maxOperands with
  | none => true
  | some most => count < most

/-- Reads words up to the end of a level; `count` operands are read already. A word that begins with
a hyphen and goes on is never the value of the option before it. -/
def readWords (level : Level) : State → Nat → List Text → List Given × Ending
  | state, _, [] => (state.unsettled, .complete)
  | state, count, word :: words =>
    let operand := fun (state : State) =>
      if level.admits count then
        let (given, ending) := readWords level state (count + 1) words
        (Given.operand word :: given, ending)
      else ([], .misplaced)
    let options := fun (c : Cluster) =>
      match c with
      | .complete options =>
        let (given, ending) := readWords level .free count words
        (state.unsettled ++ options ++ given, ending)
      | .awaiting options name =>
        let (given, ending) := readWords level (.awaiting name) count words
        (state.unsettled ++ options ++ given, ending)
      | .unknown options => (if options = [] then [] else state.unsettled ++ options, .misplaced)
    match state, word with
    | .operandsOnly, _ => operand .operandsOnly
    | _, ['-', '-'] =>
      let (given, ending) := readWords level .operandsOnly count words
      (state.unsettled ++ given, ending)
    | _, '-' :: '-' :: t => options (level.longOption t)
    | .free, '-' :: c :: t => options (level.cluster (c :: t))
    | .awaiting _, '-' :: c :: t => options (level.cluster (c :: t))
    | .awaiting name, value =>
      let (given, ending) := readWords level .free count words
      (.option name (some value) true :: given, ending)
    | .free, word =>
      if level.commands.contains word then ([], .command word words) else operand .free

end Level
end Placeholders.Command
