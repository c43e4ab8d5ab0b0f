import Placeholders.Command.Word

/-!
From the words of a command line to a request. Options that all commands share may stand before the
command and after it; what stands after it counts. The environment stands in for options that are
not given.
-/

namespace Placeholders.Command

/-- What the words of one level set. -/
structure Settings where
  color : Option Text := none
  verbose : Bool := false
  executionId : Option Text := none
  now : Option Instant := none
  json : Bool := false
  strict : Bool := false
  data : List (Text × Text) := []
  operands : List Text := []

def colors : List Text := ["auto".toList, "always".toList, "never".toList]

/-- Column and value around the first equals sign. -/
def readData (t : Text) : Except Refusal (Text × Text) :=
  match Text.cutAt ['='] t with
  | some (column, value) => .ok (column.trim, value)
  | none => .error (.invalidData t)

def readTime (t : Text) : Except Refusal Instant :=
  match Instant.read t with
  | .ok instant => .ok instant
  | .error e => .error (.invalidTime t e)

namespace Settings

/-- A flag may be given once. -/
def setFlag (given : Bool) (s : Settings) : Except Refusal Settings :=
  if given then .error .usage else .ok s

/-- Puts in one option or operand. An option other than test data may be given once, and files
have names. -/
def put (filesOnly : Bool) (s : Settings) : Given → Except Refusal Settings
  | .option .verbose _ _ => setFlag s.verbose { s with verbose := true }
  | .option .json _ _ => setFlag s.json { s with json := true }
  | .option .strict _ _ => setFlag s.strict { s with strict := true }
  | .option .help _ _ | .option .version _ _ => .error .information
  | .option _ none _ => .error .usage
  | .option .color (some value) _ =>
    if s.color.isSome ∨ value ∉ colors then .error .usage else .ok { s with color := some value }
  | .option .executionId (some value) _ =>
    if s.executionId.isSome then .error .usage else .ok { s with executionId := some value }
  | .option .now (some value) _ =>
    if s.now.isSome then .error .usage
    else (readTime value).map fun instant => { s with now := some instant }
  | .option .data (some value) _ =>
    (readData value).map fun column => { s with data := s.data ++ [column] }
  | .operand t =>
    if filesOnly ∧ t = [] then .error .usage else .ok { s with operands := s.operands ++ [t] }

/-- Takes the environment for what is not given. The time there is read even if a time on another
level will count. -/
def putEnvironment (env : Environment) (s : Settings) : Except Refusal Settings :=
  match s.now, env.now with
  | none, some t => do
    let _ ← readTime t
    pure s
  | _, _ => pure s

end Settings

def shared : List OptionName := [.color, .verbose, .executionId, .now]

def firstLevel : Level where
  options := shared ++ [.help, .version]
  commands := ["eval".toList, "parse".toList, "check".toList, "render".toList,
    "functions".toList, "help".toList]
  maxOperands := some 0

/-- The level of a command; commands have no further commands. -/
def commandLevel (options : List OptionName) (maxOperands : Option Nat) : Level where
  options := shared ++ .help :: options
  commands := []
  maxOperands := maxOperands

/-- The last item if it is still open, apart from what is settled before it. -/
def splitOpen (given : List Given) : List Given × List Given :=
  match given.getLast? with
  | some (.option _ _ true) | some (.operand _) => (given.dropLast, given.drop (given.length - 1))
  | _ => (given, [])

def putAll (filesOnly : Bool) (s : Settings) (given : List Given) : Except Refusal Settings :=
  given.foldlM (Settings.put filesOnly) s

/-- The settings of the words after a command. -/
def readLevel (env : Environment) (level : Level) (filesOnly : Bool) (words : List Text) :
    Except Refusal Settings :=
  match level.readWords .free 0 words with
  | (given, .complete) => do
    let s ← putAll filesOnly {} given
    s.putEnvironment env
  | (given, _) => do
    let _ ← putAll filesOnly {} (splitOpen given).1
    throw .usage

/-- The command of a name and the settings on its level. -/
def readCommand (env : Environment) (name : Text) (words : List Text) :
    Except Refusal (Command × Settings) := do
  let one := fun (s : Settings) => match s.operands with
    | t :: _ => Except.ok t
    | [] => .error Refusal.usage
  if name = "eval".toList then
    let s ← readLevel env (commandLevel [.json] (some 1)) false words
    let placeholder ← one s
    pure (.eval placeholder s.json, s)
  else if name = "parse".toList then
    let s ← readLevel env (commandLevel [.json] (some 1)) false words
    let placeholder ← one s
    pure (.parse placeholder s.json, s)
  else if name = "check".toList then
    let s ← readLevel env (commandLevel [.json, .strict] none) true words
    let _ ← one s
    pure (.check s.operands s.json s.strict, s)
  else if name = "render".toList then
    let s ← readLevel env (commandLevel [.json, .data] (some 1)) true words
    let file ← one s
    pure (.render file s.data s.json, s)
  else if name = "functions".toList then
    let s ← readLevel env (commandLevel [] (some 0)) false words
    pure (.functions, s)
  else match words with
    | [] => throw .information
    | [command] => throw (if command ∈ firstLevel.commands then .information else .usage)
    | _ => throw .usage

/-- The request of a command line. -/
def read (env : Environment) (words : List Text) : Except Refusal Request :=
  let (given, ending) := firstLevel.readWords .free 0 words
  match ending with
  | .misplaced => do
    let _ ← putAll false {} (splitOpen given).1
    throw .usage
  | .complete => do
    let s ← putAll false {} given
    let _ ← s.putEnvironment env
    throw .usage
  | .command name rest => do
    let (settled, unsettled) := splitOpen given
    let s ← putAll false {} settled
    let (command, later) ← readCommand env name rest
    let s ← putAll false s unsettled
    let _ ← s.putEnvironment env
    let now ← match later.now, s.now, env.now with
      | some now, _, _ => pure (some now)
      | none, some now, _ => pure (some now)
      | none, none, some t => (readTime t).map some
      | none, none, none => pure none
    let identity := later.executionId.getD (s.executionId.getD (env.identity.getD []))
    pure ⟨identity, now, command⟩

end Placeholders.Command
