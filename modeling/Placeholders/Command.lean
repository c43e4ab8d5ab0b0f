import Placeholders.Calendar.Reader
import Placeholders.Text.Quoted

/-!
Commands of the command line, the settings they share, and their outcomes.
-/

namespace Placeholders

inductive Command where
  | eval (placeholder : Text) (json : Bool)
  | parse (placeholder : Text) (json : Bool)
  | check (files : List Text) (json strict : Bool)
  | render (file : Text) (data : List (Text × Text)) (json : Bool)
  | functions
deriving Repr, DecidableEq

/-- A command with the identity of its run and, if the clock is to stand still, the time. -/
structure Request where
  identity : Text
  now : Option Instant
  command : Command
deriving Repr, DecidableEq

/-- Why a command line is no request. Help and version are asked for without an error. -/
inductive Refusal where
  | usage
  | invalidTime (written : Text) (e : TimeError)
  | invalidData (written : Text)
  | information
deriving Repr, DecidableEq

structure Outcome where
  code : Nat
  stdout : Text
  stderr : Text
deriving Repr, DecidableEq

/-- The variables of the environment that stand for options. -/
structure Environment where
  identity : Option Text := none
  now : Option Text := none

def Refusal.message? : Refusal → Option Text
  | usage => none
  | invalidTime written e =>
    some ("invalid time '".toList ++ written ++ "': ".toList ++ e.message ++
      " (expected YYYY-MM-DDThh:mm:ss)".toList)
  | invalidData written =>
    some ("invalid test data '".toList ++ written ++ "': expected column=value".toList)
  | information => none

def Refusal.code : Refusal → Nat
  | information => 0
  | _ => 2

/-- The commands in one line. -/
def Command.synopsis : Text := "usage: eval, parse, check, render or functions".toList

def Command.isJson : Command → Bool
  | eval _ json => json
  | parse _ json => json
  | check _ json _ => json
  | render _ _ json => json
  | functions => false

/-- The files that a command reads, in order. -/
def Command.files : Command → List Text
  | check files _ _ => files
  | render file _ _ => [file]
  | _ => []

end Placeholders
