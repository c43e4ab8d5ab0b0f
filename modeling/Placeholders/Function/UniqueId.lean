import Placeholders.Calendar.Clock
import Placeholders.Entropy.Stream
import Placeholders.Function.Call
import Placeholders.Text.Blank
import Placeholders.Text.DecimalDigit
import Placeholders.Text.Pieces

/-!
Identifiers made from a text with tokens. Dates and times, random digits and random letters are put
in one after another, each kind into the text that the kind before it left. Digits depend on the
seed of the call, letters on the number in their own token.
-/

namespace Placeholders.UniqueId

/-- Tokens of dates and times, in the order in which they are replaced. -/
def timeTokens : List (Text × List TimeField) :=
  [("%YYYY-MM-DD%".toList, TimeField.isoDate),
    ("%YYYYMMDD%".toList, [.year, .month, .day]),
    ("%YYMMDD%".toList, [.shortYear, .month, .day]),
    ("%hh:mm:ss%".toList, TimeField.isoTime),
    ("%hh.mm.ss%".toList, [.hour, .mark '.', .minute, .mark '.', .second]),
    ("%hhmmss%".toList, [.hour, .minute, .second]),
    ("%hhmm%".toList, [.hour, .minute])]

def replaceTimes (now : Instant) (t : Text) : Text :=
  timeTokens.foldl (fun t (token, fields) => Text.replace token (now.write fields) t) t

/-- The number of digits that a token such as `%nnn%` asks for. -/
def digitToken? : Text → Option Nat
  | '%' :: t =>
    match t.takeWhile (· == 'n'), t.dropWhile (· == 'n') with
    | 'n' :: more, '%' :: _ => some (more.length + 1)
    | _, _ => none
  | _ => none

def writeDigitToken (width : Nat) : Text := '%' :: List.replicate width 'n' ++ ['%']

/-- The widest token whose numbers are all words of 64 bits. -/
def widestToken : Nat := 19

/-- Random digits, or the token itself if it is too wide; then nothing is drawn. -/
def drawDigits (s : RandomStream) (width : Nat) : Text × RandomStream :=
  if width ≤ widestToken then
    (Numeral.padded width (s.nextBelow (.ofNat (Nat.pow 10 width))).1.toNat, s.next.2)
  else (writeDigitToken width, s)

def fillDigits (s : RandomStream) : List (Piece Nat) → Text × RandomStream
  | [] => ([], s)
  | .char c :: pieces =>
    let (t, s) := fillDigits s pieces
    (c :: t, s)
  | .token width :: pieces =>
    let (digits, s) := drawDigits s width
    let (t, s) := fillDigits s pieces
    (digits ++ t, s)

/-- The tokens draw from one stream, in their order. -/
def replaceDigits (s : RandomStream) (t : Text) : Text × RandomStream :=
  fillDigits s (t.pieces digitToken? writeDigitToken)

/-- A token such as `%a(5; 42)%`. -/
structure LetterToken where
  upperCase : Bool
  count : Text
  gap : Text
  seed : Text
deriving Repr, DecidableEq

namespace LetterToken

/-- What follows the opening parenthesis. The numbers may be written in any script. -/
def readInside? (upperCase : Bool) (t : Text) : Option LetterToken :=
  match t.takeWhile isDecimalDigit, t.dropWhile isDecimalDigit with
  | d :: count, ';' :: t =>
    let afterGap := t.dropWhile isSpace
    match afterGap.takeWhile isDecimalDigit, afterGap.dropWhile isDecimalDigit with
    | e :: seed, ')' :: '%' :: _ => some ⟨upperCase, d :: count, t.takeWhile isSpace, e :: seed⟩
    | _, _ => none
  | _, _ => none

def read? : Text → Option LetterToken
  | '%' :: 'a' :: '(' :: t => readInside? false t
  | '%' :: 'A' :: '(' :: t => readInside? true t
  | _ => none

def written (token : LetterToken) : Text :=
  '%' :: (if token.upperCase then 'A' else 'a') :: '(' :: token.count ++ ';' :: token.gap ++
    token.seed ++ [')', '%']

end LetterToken

def mostLetters : Nat := 1024

def letter (upperCase : Bool) (n : Nat) : Char :=
  Char.ofNat ((if upperCase then 'A' else 'a').toNat + n)

def drawLetters (upperCase : Bool) : Nat → RandomStream → Text
  | 0, _ => []
  | count + 1, s =>
    letter upperCase (s.nextBelow 26).1.toNat :: drawLetters upperCase count s.next.2

/-- Random letters, or the token itself if it asks for too many or a number in it is no word. -/
def LetterToken.letters (token : LetterToken) : Text :=
  match Numeral.digits? token.count, Numeral.word64? token.seed with
  | some count, some seed =>
    if count ≤ mostLetters then drawLetters token.upperCase count (.ofSeed seed) else token.written
  | _, _ => token.written

def replaceLetters (t : Text) : Text :=
  t.substitute LetterToken.read? LetterToken.written LetterToken.letters

def fill (now : Instant) (s : RandomStream) (t : Text) : Text :=
  replaceLetters (replaceDigits s (replaceTimes now t)).1

/-- The index and the text of a call. -/
def request (call : Call) : Except CallError (Int64 × Text) :=
  match call.onlyIndex with
  | .error e => .error e
  | .ok index =>
    match call.invocation.arguments with
    | [text] => .ok (index, text)
    | _ => .error (call.countError .exactlyOne)

/-- All dates and times of one identifier are of one reading of the clock. -/
def handler {m : Type → Type} [Monad m] [MonadClock m] : Handler m := fun call =>
  match request call with
  | .error e => pure (.error e)
  | .ok (index, text) => do
    let now ← MonadClock.now
    pure (.ok (fill now (.atIndex call.seed index) text))

end Placeholders.UniqueId
