import Placeholders.Invocation
import Placeholders.Text.Pieces

/-!
The segments of a document: runs of literal text and the placeholders between them. Opening braces
that begin no placeholder and have no closing braces after them are literal text.
-/

namespace Placeholders

inductive Meaning where
  | function (i : Invocation)
  /-- A reference to a column of the test data, if it names one. -/
  | testData (column : Option Text)
  | malformed (e : ParseError)
deriving Repr, DecidableEq

structure Occurrence where
  written : Text
  meaning : Meaning
deriving Repr, DecidableEq

inductive Segment where
  | literal (t : Text)
  /-- A placeholder and its offset in bytes. -/
  | placeholder (start : Nat) (o : Occurrence)
deriving Repr, DecidableEq

namespace TestData

def marker : Text := ['T', 'e', 's', 't', 'D', 'a', 't', 'a']

def parts (body : Text) : List Text := (Text.splitOn '.' body).map Text.trim

def isReference (body : Text) : Bool := (parts body).contains marker

/-- The last part after the first marker, unless it is blank. -/
def column? (body : Text) : Option Text :=
  match ((parts body).dropWhile (· != marker)).tail.getLast? with
  | some (c :: t) => some (c :: t)
  | _ => none

end TestData

namespace Occurrence

def ofPlaceholder (p : Placeholder) : Occurrence where
  written := p.written
  meaning := match p.invocation with
    | .ok i => .function i
    | .error e => .malformed e

/-- Text in double braces that is no placeholder by its form. -/
def ofBody (body : Text) : Occurrence :=
  let written := '{' :: '{' :: body ++ ['}', '}']
  ⟨written,
    if TestData.isReference body then .testData (TestData.column? body)
    else .malformed (.noPlaceholder written)⟩

/-- What begins at the front of a text: a placeholder, or else all up to the next closing braces. -/
def read? (t : Text) : Option Occurrence :=
  match Placeholder.read? t with
  | some (p, _) => some (ofPlaceholder p)
  | none =>
    match t with
    | '{' :: '{' :: inside =>
      (Text.cutAt ['}', '}'] inside).map fun (body, _) => ofBody body
    | _ => none

theorem written_ofPlaceholder (p : Placeholder) : (ofPlaceholder p).written = p.written := rfl

theorem written_ofBody (body : Text) :
    (ofBody body).written = '{' :: '{' :: body ++ ['}', '}'] := rfl

theorem read?_eq_some {t : Text} {o : Occurrence} (h : read? t = some o) :
    o.written ≠ [] ∧ ∃ rest, t = o.written ++ rest := by
  unfold read? at h
  split at h
  · next p rest hp =>
    obtain rfl := Option.some.inj h
    exact ⟨List.cons_ne_nil _ _, rest, Placeholder.read?_eq_some hp⟩
  · split at h
    · simp only [Option.map_eq_some_iff, Prod.exists] at h
      obtain ⟨body, rest, hc, rfl⟩ := h
      exact ⟨List.cons_ne_nil _ _, rest, by simp [written_ofBody, Text.cutAt_eq_some hc]⟩
    · contradiction

end Occurrence

namespace Segment

/-- Puts a character before the segments of the rest of a document. -/
def consChar (c : Char) : List Segment → List Segment
  | literal t :: segments => literal (c :: t) :: segments
  | segments => literal [c] :: segments

/-- Places pieces one after another, the first at byte `start`. -/
def ofPieces (start : Nat) : List (Piece Occurrence) → List Segment
  | [] => []
  | .char c :: pieces => consChar c (ofPieces (start + c.utf8Size) pieces)
  | .token o :: pieces => placeholder start o :: ofPieces (start + o.written.byteSize) pieces

/-- The segments of a document, in order and without gaps. -/
def scan (document : Text) : List Segment :=
  ofPieces 0 (document.pieces Occurrence.read? Occurrence.written)

/-- The bytes that a placeholder covers; the end is not included. -/
def span (start : Nat) (o : Occurrence) : Nat × Nat := (start, start + o.written.byteSize)

def text : Segment → Text
  | literal t => t
  | placeholder _ o => o.written

theorem text_consChar (c : Char) (segments : List Segment) :
    (consChar c segments).flatMap text = c :: segments.flatMap text := by
  unfold consChar
  split <;> simp [text]

theorem text_ofPieces (start : Nat) (pieces : List (Piece Occurrence)) :
    (ofPieces start pieces).flatMap text = pieces.flatMap (Piece.text Occurrence.written) := by
  induction pieces generalizing start with
  | nil => rfl
  | cons piece pieces ih =>
    cases piece with
    | char c => simp [ofPieces, text_consChar, Piece.text, ih]
    | token o => simp [ofPieces, text, Piece.text, ih]

/-- Scanning loses nothing of a document. -/
theorem flatMap_text_scan (document : Text) : (scan document).flatMap text = document := by
  rw [scan, text_ofPieces]
  exact Text.flatMap_text_pieces _ _ Occurrence.read?_eq_some document

end Segment
end Placeholders
