import Placeholders.Command.Reader
import Placeholders.Command.Run
import Std.Time.Zoned

/-!
The command line: reads the environment, the clock and the files, and prints the outcome.
-/

namespace Placeholders

def systemTime : IO Instant := do
  let now ← Std.Time.PlainDateTime.now
  pure
    { date := ⟨now.date.year, now.date.month.val.toNat, now.date.day.val.toNat⟩
      hour := now.time.hour.val.toNat
      minute := now.time.minute.val.toNat
      second := now.time.second.val.toNat
      nanosecond := now.time.nanosecond.val.toNat }

instance : MonadClock IO := ⟨systemTime⟩

def environment : IO Environment := do
  let identity ← IO.getEnv "FENIX_EXECUTION_ID"
  let now ← IO.getEnv "FENIX_NOW"
  pure ⟨identity.map String.toList, now.map String.toList⟩

/-- The text of a file, unless it cannot be read as text. -/
def contents (file : Text) : IO (Option Text) := do
  try
    let text ← IO.FS.readFile (String.ofList file)
    pure (some text.toList)
  catch _ => pure none

def printText (t : Text) : IO Unit := IO.print (String.ofList t)

def printError (t : Text) : IO Unit := IO.eprint (String.ofList t)

/-- Without a time of its own, a run reads the clock of the system whenever it needs the time. -/
def answer (request : Request) (contents : Text → Option Text) : IO (Except Text Outcome) :=
  match request.now with
  | some now => pure (request.command.run request.identity now contents)
  | none => request.command.execute Registry.standard request.identity contents

def perform (request : Request) : IO Nat := do
  let files ← request.command.files.mapM fun file => return (file, ← contents file)
  let result ← answer request fun file => (files.lookup file).join
  match result with
  | .error file => printError (Command.complain ("failed to read ".toList ++ file))
  | .ok outcome =>
    printText outcome.stdout
    printError outcome.stderr
  pure (Command.exitCode result)

end Placeholders

open Placeholders in
def main (args : List String) : IO UInt32 := do
  match Command.read (← environment) (args.map String.toList) with
  | .error refusal =>
    printError (Command.complain (refusal.message?.getD Command.synopsis))
    pure refusal.code.toUInt32
  | .ok request => return (← perform request).toUInt32
