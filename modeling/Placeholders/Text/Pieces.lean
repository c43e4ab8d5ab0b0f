import Placeholders.Text

/-!
Leftmost, non-overlapping tokens of a text. A recogniser looks at the rest of the text at every
position that no earlier token covers; what it finds stands for the characters it is written with.
-/

namespace Placeholders

inductive Piece (α : Type) where
  | char (c : Char)
  | token (a : α)
deriving Repr, DecidableEq

namespace Piece

def text {α : Type} (written : α → Text) : Piece α → Text
  | char c => [c]
  | token a => written a

end Piece

namespace Text

variable {α : Type} (recognise : Text → Option α) (written : α → Text)

/-- The pieces after the first `covered` characters, which belong to the last token. -/
def piecesAfter : Nat → Text → List (Piece α)
  | _, [] => []
  | covered + 1, _ :: t => piecesAfter covered t
  | 0, c :: t =>
    match recognise (c :: t) with
    | some a => .token a :: piecesAfter ((written a).length - 1) t
    | none => .char c :: piecesAfter 0 t

def pieces (t : Text) : List (Piece α) := piecesAfter recognise written 0 t

theorem piecesAfter_eq_drop (n : Nat) (t : Text) :
    piecesAfter recognise written n t = pieces recognise written (t.drop n) := by
  induction t generalizing n with
  | nil => cases n <;> rfl
  | cons c t ih =>
    cases n with
    | zero => rfl
    | succ n => simpa [piecesAfter] using ih n

/-- A recogniser that finds only what stands at the front loses nothing. -/
theorem flatMap_text_pieces
    (sound : ∀ {t a}, recognise t = some a → written a ≠ [] ∧ ∃ rest, t = written a ++ rest)
    (t : Text) :
    (pieces recognise written t).flatMap (Piece.text written) = t := by
  suffices ∀ n, (piecesAfter recognise written n t).flatMap (Piece.text written) = t.drop n from
    this 0
  induction t with
  | nil => intro n; cases n <;> rfl
  | cons c t ih =>
    intro n
    cases n with
    | succ n => simpa [piecesAfter] using ih n
    | zero =>
      simp only [piecesAfter]
      split
      · next a h =>
        obtain ⟨hne, rest, ht⟩ := sound h
        obtain ⟨d, w, hw⟩ := List.exists_cons_of_ne_nil hne
        rw [hw, List.cons_append] at ht
        obtain ⟨rfl, rfl⟩ := List.cons.inj ht
        simp [Piece.text, ih, hw]
      · simpa [Piece.text] using ih 0

/-- Writes every token in another way. -/
def substitute (replacement : α → Text) (t : Text) : Text :=
  (pieces recognise written t).flatMap (Piece.text replacement)

/-- Replaces every occurrence of `token`. -/
def replace (token value t : Text) : Text :=
  substitute (fun t => (token.isPrefixOf? t).map fun _ => ()) (fun _ => token) (fun _ => value) t

end Text
end Placeholders
