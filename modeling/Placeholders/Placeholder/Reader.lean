import Placeholders.Placeholder.Basic

/-!
Reading a placeholder from the front of a text. Each reader answers with what it read and the rest
of the text. The end of the arguments is the only choice: the first `)}` on their line that the
rest of a placeholder follows.
-/

namespace Placeholders

/-- Blanks, at most one sign, digits, blanks; each part may be missing. -/
def isIndexItem (t : Text) : Bool :=
  let afterSign := match t.dropWhile isBlank with
    | '+' :: r => r
    | '-' :: r => r
    | r => r
  ((afterSign.dropWhile isDigit).dropWhile isBlank).isEmpty

namespace EntropyClause

def readFlag? (t : Text) : Option (Bool × Text) :=
  match (flag true).isPrefixOf? t with
  | some rest => some (true, rest)
  | none => ((flag false).isPrefixOf? t).map fun rest => (false, rest)

/-- The number after a comma. -/
def readExtra? (t : Text) : Option ((Text × Text) × Text) :=
  let digits := (t.dropWhile isBlank).takeWhile isDigit
  if digits = [] then none
  else some ((t.takeWhile isBlank, digits), (t.dropWhile isBlank).dropWhile isDigit)

/-- The inside of an entropy clause, up to and with the closing parenthesis. -/
def readInside? (t : Text) : Option (EntropyClause × Text) :=
  (readFlag? t).bind fun (mixesIdentity, rest) =>
    match rest with
    | ')' :: rest => some (⟨mixesIdentity, none⟩, rest)
    | ',' :: rest =>
      match readExtra? rest with
      | some (extra, ')' :: rest) => some (⟨mixesIdentity, some extra⟩, rest)
      | _ => none
    | _ => none

theorem readFlag?_eq_some {t rest : Text} {b : Bool} (h : readFlag? t = some (b, rest)) :
    t = flag b ++ rest := by
  simp only [readFlag?] at h
  split at h
  · next hr =>
    obtain ⟨rfl, rfl⟩ : true = b ∧ _ = rest := by simpa using h
    exact Text.isPrefixOf?_eq_some_iff.1 hr
  · simp only [Option.map_eq_some_iff, Prod.mk.injEq] at h
    obtain ⟨_, hr, rfl, rfl⟩ := h
    exact Text.isPrefixOf?_eq_some_iff.1 hr

theorem readExtra?_eq_some {t blanks digits rest : Text}
    (h : readExtra? t = some ((blanks, digits), rest)) : t = blanks ++ digits ++ rest := by
  simp only [readExtra?] at h
  split at h
  · contradiction
  · simp only [Option.some.injEq, Prod.mk.injEq] at h
    obtain ⟨⟨rfl, rfl⟩, rfl⟩ := h
    simp [List.append_assoc]

theorem readInside?_eq_some {t rest : Text} {e : EntropyClause}
    (h : readInside? t = some (e, rest)) : '(' :: t = e.written ++ rest := by
  simp only [readInside?, Option.bind_eq_some_iff, Prod.exists] at h
  obtain ⟨b, r, hb, h⟩ := h
  have ht := readFlag?_eq_some hb
  split at h
  · simp only [Option.some.injEq, Prod.mk.injEq] at h
    obtain ⟨rfl, rfl⟩ := h
    simp [written, ht]
  · split at h
    · next hx =>
      simp only [Option.some.injEq, Prod.mk.injEq] at h
      obtain ⟨rfl, rfl⟩ := h
      simp [written, ht, readExtra?_eq_some hx]
    · contradiction
  · contradiction

end EntropyClause

namespace Placeholder

/-- The index list, if there is one; a bracket that opens none is refused. -/
def readIndexes? : Text → Option (Option (List Text) × Text)
  | '[' :: t =>
    (Text.cutAt [']'] t).bind fun (inside, rest) =>
      let elements := Text.splitOn ',' inside
      if elements.all isIndexItem then some (some elements, rest) else none
  | t => some (none, t)

/-- What follows the arguments: `)}`, perhaps an entropy clause, `}`. -/
def readClosing? : Text → Option (Option EntropyClause × Text)
  | ')' :: '}' :: '}' :: t => some (none, t)
  | ')' :: '}' :: '(' :: t =>
    match EntropyClause.readInside? t with
    | some (e, '}' :: rest) => some (some e, rest)
    | _ => none
  | _ => none

def readArguments? : Text → Option (Text × Option EntropyClause × Text)
  | [] => none
  | c :: t =>
    match readClosing? (c :: t) with
    | some (entropy, rest) => some ([], entropy, rest)
    | none =>
      if c = '\n' then none
      else (readArguments? t).map fun (arguments, tail) => (c :: arguments, tail)

def read? : Text → Option (Placeholder × Text)
  | '{' :: '{' :: t =>
    let name := t.takeWhile isNameChar
    if name = [] then none
    else (readIndexes? (t.dropWhile isNameChar)).bind fun (indexes, rest) =>
      match rest with
      | '(' :: rest =>
        (readArguments? rest).map fun (arguments, entropy, rest) =>
          (⟨name, indexes, arguments, entropy⟩, rest)
      | _ => none
  | _ => none

theorem readIndexes?_eq_some {t rest : Text} {indexes : Option (List Text)}
    (h : readIndexes? t = some (indexes, rest)) : t = writtenIndexes indexes ++ rest := by
  unfold readIndexes? at h
  split at h
  · simp only [Option.bind_eq_some_iff, Prod.exists] at h
    obtain ⟨inside, r, hc, h⟩ := h
    split at h
    · simp only [Option.some.injEq, Prod.mk.injEq] at h
      obtain ⟨rfl, rfl⟩ := h
      simp [writtenIndexes, Text.join_splitOn, Text.cutAt_eq_some hc]
    · contradiction
  · simp only [Option.some.injEq, Prod.mk.injEq] at h
    obtain ⟨rfl, rfl⟩ := h
    rfl

theorem readClosing?_eq_some {t rest : Text} {entropy : Option EntropyClause}
    (h : readClosing? t = some (entropy, rest)) :
    t = ')' :: '}' :: writtenEntropy entropy ++ '}' :: rest := by
  unfold readClosing? at h
  split at h
  · simp only [Option.some.injEq, Prod.mk.injEq] at h
    obtain ⟨rfl, rfl⟩ := h
    rfl
  · split at h
    · next he =>
      simp only [Option.some.injEq, Prod.mk.injEq] at h
      obtain ⟨rfl, rfl⟩ := h
      simp [writtenEntropy, EntropyClause.readInside?_eq_some he]
    · contradiction
  · contradiction

theorem readArguments?_eq_some {t arguments rest : Text} {entropy : Option EntropyClause}
    (h : readArguments? t = some (arguments, entropy, rest)) :
    t = arguments ++ ')' :: '}' :: writtenEntropy entropy ++ '}' :: rest := by
  induction t generalizing arguments with
  | nil => simp [readArguments?] at h
  | cons c t ih =>
    simp only [readArguments?] at h
    split at h
    · next hc =>
      simp only [Option.some.injEq, Prod.mk.injEq] at h
      obtain ⟨rfl, rfl, rfl⟩ := h
      simpa using readClosing?_eq_some hc
    · split at h
      · contradiction
      · simp only [Option.map_eq_some_iff, Prod.exists, Prod.mk.injEq] at h
        obtain ⟨a, e, r, hr, rfl, rfl, rfl⟩ := h
        simpa using ih hr

/-- A placeholder that is read stands at the front of the text as it is written. -/
theorem read?_eq_some {t rest : Text} {p : Placeholder} (h : read? t = some (p, rest)) :
    t = p.written ++ rest := by
  unfold read? at h
  split at h
  · next t =>
    simp only at h
    split at h
    · contradiction
    · simp only [Option.bind_eq_some_iff, Prod.exists] at h
      obtain ⟨indexes, r, hi, h⟩ := h
      split at h
      · simp only [Option.map_eq_some_iff, Prod.exists, Prod.mk.injEq] at h
        obtain ⟨arguments, entropy, r, ha, rfl, rfl⟩ := h
        have ht : t = t.takeWhile isNameChar ++ t.dropWhile isNameChar :=
          List.takeWhile_append_dropWhile.symm
        rw [readIndexes?_eq_some hi, readArguments?_eq_some ha] at ht
        simpa [written] using ht
      · contradiction
  · contradiction

/-- The first placeholder of a text, which may stand anywhere in it. -/
def find? : Text → Option Placeholder
  | [] => none
  | c :: t =>
    match read? (c :: t) with
    | some (p, _) => some p
    | none => find? t

end Placeholder
end Placeholders
