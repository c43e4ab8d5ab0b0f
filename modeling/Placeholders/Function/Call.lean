import Placeholders.Entropy.Seed
import Placeholders.Text.Quoted

/-!
Calls of functions: what a function is given, how it answers, and what can be wrong with its
indexes and arguments.
-/

namespace Placeholders

structure Call where
  invocation : Invocation
  identity : Text
  seed : Seed
deriving Repr, DecidableEq

inductive ArgumentCount where
  | atMostOne
  | exactlyOne
  | twoOrFour
deriving Repr, DecidableEq

inductive RangeReason where
  | dateOutsideCalendar
  | notUnsigned32
  | tooManyDigits
  | padTooWide
deriving Repr, DecidableEq

inductive CallProblem where
  | indexUnsupported (indexes : List Int64)
  | tooManyIndexes (indexes : List Int64)
  | argumentCount (expected : ArgumentCount) (arguments : List Text)
  | notAnInteger (argument : Text)
  | outOfRange (argument : Text) (reason : RangeReason)
  /-- A function's own words. -/
  | failed (message : Text)
deriving Repr, DecidableEq

structure CallError where
  placeholder : Text
  problem : CallProblem
deriving Repr, DecidableEq

abbrev Handler (m : Type → Type) := Call → m (Except CallError Text)

def ArgumentCount.text : ArgumentCount → Text
  | atMostOne => "0 or 1".toList
  | exactlyOne => "exactly 1".toList
  | twoOrFour => "2 or 4".toList

def RangeReason.text : RangeReason → Text
  | dateOutsideCalendar => "shifted date is outside the calendar".toList
  | notUnsigned32 => "must be between 0 and 4294967295".toList
  | tooManyDigits => "integer digits plus decimals must not exceed 300".toList
  | padTooWide => "pad width must not exceed 1024".toList

/-- The text of a list of indexes. -/
def writeIndexes (indexes : List Int64) : Text :=
  Text.bracketed (indexes.map fun i => Numeral.ofInt i.toInt)

def writeArguments (arguments : List Text) : Text :=
  Text.bracketed (arguments.map Text.quoted)

def CallError.message (e : CallError) : Text :=
  let placeholder := '\'' :: e.placeholder ++ ['\'']
  match e.problem with
  | .indexUnsupported indexes =>
    "array index is not supported in ".toList ++ placeholder ++ ", got ".toList ++
      writeIndexes indexes
  | .tooManyIndexes indexes =>
    "at most 1 array index allowed in ".toList ++ placeholder ++ ", got ".toList ++
      writeIndexes indexes
  | .argumentCount expected arguments =>
    placeholder ++ " expects ".toList ++ expected.text ++ " arguments, got ".toList ++
      Numeral.ofNat arguments.length ++ ": ".toList ++ writeArguments arguments
  | .notAnInteger argument =>
    "argument '".toList ++ argument ++ "' in ".toList ++ placeholder ++
      " is not an integer".toList
  | .outOfRange argument reason =>
    "argument '".toList ++ argument ++ "' in ".toList ++ placeholder ++
      " is out of range: ".toList ++ reason.text
  | .failed message => placeholder ++ " failed: ".toList ++ message

/-- The only index, or `default` if there is none. -/
def Invocation.onlyIndex? (i : Invocation) (default : Int64) : Option Int64 :=
  match i.indexes with
  | [] => some default
  | [index] => some index
  | _ => none

namespace Call

/-- The call that an invocation makes in a run with some identity. -/
def ofInvocation (identity : Text) (i : Invocation) : Call :=
  ⟨i, identity, .ofEntropy identity i.entropy⟩

def error (call : Call) (problem : CallProblem) : CallError := ⟨call.invocation.written, problem⟩

def onlyIndex (call : Call) : Except CallError Int64 :=
  match call.invocation.onlyIndex? 1 with
  | some index => .ok index
  | none => .error (call.error (.tooManyIndexes call.invocation.indexes))

theorem onlyIndex_eq_ok (call : Call) (h : call.invocation.indexes.length ≤ 1) :
    ∃ index, call.onlyIndex = .ok index := by
  rw [onlyIndex, Invocation.onlyIndex?]
  match hindexes : call.invocation.indexes with
  | [] => exact ⟨1, rfl⟩
  | [index] => exact ⟨index, rfl⟩
  | _ :: _ :: _ => simp [hindexes] at h

theorem onlyIndex_eq_error (call : Call) (h : ¬ call.invocation.indexes.length ≤ 1) :
    call.onlyIndex = .error (call.error (.tooManyIndexes call.invocation.indexes)) := by
  rw [onlyIndex, Invocation.onlyIndex?]
  match hindexes : call.invocation.indexes with
  | [] => simp [hindexes] at h
  | [_] => simp [hindexes] at h
  | _ :: _ :: _ => rfl

def countError (call : Call) (expected : ArgumentCount) : CallError :=
  call.error (.argumentCount expected call.invocation.arguments)

def integer (call : Call) (argument : Text) : Except CallError Int64 :=
  match Numeral.signed64? argument.trim with
  | some n => .ok n
  | none => .error (call.error (.notAnInteger argument))

end Call
end Placeholders
