/-!
Text as a list of characters, with the few operations that every part of the library shares:
size in bytes, splitting at a separator, joining, and looking for a piece of text.
-/

namespace Placeholders

abbrev Text := List Char

namespace Text

/-- The size in UTF-8, the unit of spans and widths. -/
def byteSize : Text → Nat
  | [] => 0
  | c :: t => c.utf8Size + byteSize t

def utf8 (t : Text) : List UInt8 := t.flatMap String.utf8EncodeChar

/-- The pieces between separators; one more than there are separators. -/
def splitOn (separator : Char) : Text → List Text
  | [] => [[]]
  | c :: t =>
    if c = separator then [] :: splitOn separator t
    else match splitOn separator t with
      | [] => [[c]]
      | piece :: pieces => (c :: piece) :: pieces

def join (separator : Text) : List Text → Text
  | [] => []
  | [t] => t
  | t :: ts => t ++ separator ++ join separator ts

/-- The text before and after the first occurrence of `mark`. -/
def cutAt (mark : Text) : Text → Option (Text × Text)
  | [] => if mark = [] then some ([], []) else none
  | c :: t =>
    match mark.isPrefixOf? (c :: t) with
    | some rest => some ([], rest)
    | none => (cutAt mark t).map fun (before, after) => (c :: before, after)

theorem byteSize_append (t u : Text) : byteSize (t ++ u) = byteSize t + byteSize u := by
  induction t with
  | nil => simp [byteSize]
  | cons c t ih => simp [byteSize, ih, Nat.add_assoc]

theorem splitOn_ne_nil (separator : Char) (t : Text) : splitOn separator t ≠ [] := by
  cases t with
  | nil => simp [splitOn]
  | cons c t =>
    simp only [splitOn]
    split
    · simp
    · split <;> simp

theorem join_cons (separator t : Text) {ts : List Text} (h : ts ≠ []) :
    join separator (t :: ts) = t ++ separator ++ join separator ts := by
  cases ts with
  | nil => contradiction
  | cons u us => rfl

theorem join_splitOn (separator : Char) (t : Text) : join [separator] (splitOn separator t) = t := by
  induction t with
  | nil => rfl
  | cons c t ih =>
    simp only [splitOn]
    split
    · next h => rw [join_cons _ _ (splitOn_ne_nil separator t), ih, h]; rfl
    · split
      · next h => exact absurd h (splitOn_ne_nil separator t)
      · next piece pieces h =>
        rw [h] at ih
        cases pieces with
        | nil => simpa [join] using ih
        | cons u us => simpa [join] using ih

theorem isPrefixOf?_eq_some_iff {mark t rest : Text} :
    mark.isPrefixOf? t = some rest ↔ t = mark ++ rest := by
  induction mark generalizing t with
  | nil =>
    have hnil : ([] : Text).isPrefixOf? t = some t := rfl
    simp [hnil]
  | cons c mark ih =>
    cases t with
    | nil =>
      have hnone : (c :: mark).isPrefixOf? [] = none := rfl
      simp [hnone]
    | cons d t =>
      have hcons : (c :: mark).isPrefixOf? (d :: t) =
          if c == d then mark.isPrefixOf? t else none := rfl
      simp only [hcons, List.cons_append, List.cons.injEq, beq_iff_eq]
      split
      · next h => simp [ih, h]
      · next h => simp [Ne.symm h]

theorem cutAt_eq_some {mark t before after : Text} (h : cutAt mark t = some (before, after)) :
    t = before ++ mark ++ after := by
  induction t generalizing before after with
  | nil =>
    simp only [cutAt] at h
    split at h <;> simp_all
  | cons c t ih =>
    simp only [cutAt] at h
    split at h
    · next rest hr =>
      obtain ⟨rfl, rfl⟩ : [] = before ∧ rest = after := by simpa using h
      simpa using isPrefixOf?_eq_some_iff.1 hr
    · simp only [Option.map_eq_some_iff, Prod.exists, Prod.mk.injEq] at h
      obtain ⟨b, a, hb, rfl, rfl⟩ := h
      simp [ih hb]

/-- Fills up on the left; a longer text is kept. -/
def padLeft (width : Nat) (fill : Char) (t : Text) : Text :=
  List.replicate (width - t.byteSize) fill ++ t

def padRight (width : Nat) (fill : Char) (t : Text) : Text :=
  t ++ List.replicate (width - t.byteSize) fill

end Text
end Placeholders
