import Mathlib.Data.List.Forall2
import Mathlib.Data.List.TakeWhile
import Placeholders.Function.UniqueId
import Placeholders.Proofs.Entropy.Stream
import Placeholders.Proofs.Text.Leftmost
import Placeholders.Proofs.Text.Numeral

/-!
The letter tokens of an identifier. Their numbers are decimal digits of any script with space
between them, and no character of a token can belong to two of its parts. The letters of a token are
those of the two numbers in it, whatever the text around it.
-/

namespace Placeholders

theorem not_isSpace_of_isDecimalDigit {c : Char} (h : isDecimalDigit c) : isSpace c = false := by
  -- The decades lie between the characters of space.
  have hapart : ∀ first ∈ decimalZeros, 32 < first ∧ first + 10 ≤ 0x85 ∨
      0xA0 < first ∧ first + 10 ≤ 0x1680 ∨ 0x1680 < first ∧ first + 10 ≤ 0x2000 ∨
      0x3000 < first := by decide
  obtain ⟨first, hfirst, hdecade⟩ := List.any_eq_true.mp h
  have hfirst := hapart first hfirst
  rw [Bool.eq_false_iff]
  intro hspace
  simp only [isSpace, Bool.or_eq_true, Bool.and_eq_true, decide_eq_true_eq] at hspace hdecade
  omega

namespace UniqueId

namespace LetterToken

/-- The numbers of a token are digits, and only space stands before the second. -/
structure Grammatical (token : LetterToken) : Prop where
  count_ne_nil : token.count ≠ []
  count_digits : ∀ c ∈ token.count, isDecimalDigit c
  gap_space : ∀ c ∈ token.gap, isSpace c
  seed_ne_nil : token.seed ≠ []
  seed_digits : ∀ c ∈ token.seed, isDecimalDigit c

/-- What a token is written with after its opening parenthesis. -/
def inside (token : LetterToken) : Text :=
  token.count ++ ';' :: (token.gap ++ (token.seed ++ [')', '%']))

theorem written_eq (token : LetterToken) :
    token.written = '%' :: (if token.upperCase then 'A' else 'a') :: '(' :: token.inside := by
  simp [written, inside]

theorem Grammatical.readInside? {token : LetterToken} (h : token.Grammatical) (rest : Text) :
    readInside? token.upperCase (token.inside ++ rest) = some token := by
  obtain ⟨upperCase, count, gap, seed⟩ := token
  obtain ⟨d, count, rfl⟩ := List.exists_cons_of_ne_nil h.count_ne_nil
  obtain ⟨e, seed, rfl⟩ := List.exists_cons_of_ne_nil h.seed_ne_nil
  have he : isSpace e = false := not_isSpace_of_isDecimalDigit (h.seed_digits e List.mem_cons_self)
  have hinside : inside ⟨upperCase, d :: count, gap, e :: seed⟩ ++ rest =
      (d :: count) ++ ';' :: (gap ++ e :: (seed ++ ')' :: '%' :: rest)) := by
    simp [inside]
  have hseed : e :: (seed ++ ')' :: '%' :: rest) = (e :: seed) ++ ')' :: '%' :: rest := rfl
  rw [hinside, LetterToken.readInside?, Text.takeWhile_run h.count_digits (by decide),
    Text.dropWhile_run h.count_digits (by decide)]
  simp only [Text.takeWhile_run h.gap_space he, Text.dropWhile_run h.gap_space he]
  rw [hseed, Text.takeWhile_run h.seed_digits (by decide),
    Text.dropWhile_run h.seed_digits (by decide)]
  rfl

theorem readInside?_eq_some {upperCase : Bool} {t : Text} {token : LetterToken}
    (h : readInside? upperCase t = some token) :
    token.upperCase = upperCase ∧ token.Grammatical ∧ token.inside <+: t := by
  unfold readInside? at h
  split at h
  · next d count u hcount hsemicolon =>
    dsimp only at h
    split at h
    · next e seed rest hseed hclose =>
      obtain rfl := Option.some.inj h
      refine ⟨rfl, ⟨List.cons_ne_nil _ _, fun c hc => ?_, fun c hc => List.mem_takeWhile_imp hc,
        List.cons_ne_nil _ _, fun c hc => ?_⟩, rest, ?_⟩
      · exact List.mem_takeWhile_imp (hcount ▸ hc)
      · exact List.mem_takeWhile_imp (hseed ▸ hc)
      · calc inside ⟨upperCase, d :: count, u.takeWhile isSpace, e :: seed⟩ ++ rest
          _ = (d :: count) ++ ';' ::
              (u.takeWhile isSpace ++ ((e :: seed) ++ ')' :: '%' :: rest)) := by
            simp [inside]
          _ = (d :: count) ++ ';' :: (u.takeWhile isSpace ++ u.dropWhile isSpace) := by
            rw [← hseed, ← hclose, List.takeWhile_append_dropWhile]
          _ = t := by
            rw [List.takeWhile_append_dropWhile, ← hcount, ← hsemicolon,
              List.takeWhile_append_dropWhile]
    · contradiction
  · contradiction

end LetterToken

/-- A text begins with this token. -/
def BeginsLetters (token : LetterToken) (t : Text) : Prop :=
  token.Grammatical ∧ token.written <+: t

theorem LetterToken.read?_eq_some_iff {t : Text} {token : LetterToken} :
    LetterToken.read? t = some token ↔ BeginsLetters token t := by
  constructor
  · intro h
    unfold LetterToken.read? at h
    split at h
    · next u =>
      obtain ⟨hcase, hgrammatical, hinside⟩ := readInside?_eq_some h
      refine ⟨hgrammatical, ?_⟩
      rw [written_eq, hcase]
      simpa using hinside
    · next u =>
      obtain ⟨hcase, hgrammatical, hinside⟩ := readInside?_eq_some h
      refine ⟨hgrammatical, ?_⟩
      rw [written_eq, hcase]
      simpa using hinside
    · contradiction
  · rintro ⟨hgrammatical, rest, rfl⟩
    have hinside := hgrammatical.readInside? rest
    rw [written_eq]
    cases hcase : token.upperCase with
    | false =>
        rw [hcase] at hinside
        exact hinside
    | true =>
        rw [hcase] at hinside
        exact hinside

theorem BeginsLetters.sound {token : LetterToken} {t : Text} (h : BeginsLetters token t) :
    token.written ≠ [] ∧ token.written <+: t :=
  ⟨token.written_eq ▸ List.cons_ne_nil _ _, h.2⟩

theorem leftmost_letters_iff {t : Text} {cut : List (Piece LetterToken)} :
    Text.Leftmost BeginsLetters LetterToken.written t cut ↔
      cut = t.pieces LetterToken.read? LetterToken.written :=
  Text.leftmost_iff LetterToken.read?_eq_some_iff BeginsLetters.sound

/-- So many letters, each drawn from the stream of a seed. -/
def seededLetters (upperCase : Bool) (count seed : Nat) : Text :=
  (List.range count).map fun k =>
    letter upperCase (((RandomStream.ofSeed (.ofNat seed)).draw k).toNat % 26)

theorem drawLetters_eq_map (upperCase : Bool) (count : Nat) (s : RandomStream) :
    drawLetters upperCase count s =
      (List.range count).map fun k => letter upperCase ((s.draw k).toNat % 26) := by
  induction count generalizing s with
  | zero => rfl
  | succ count ih =>
      have hfirst : (s.nextBelow 26).1.toNat = (s.draw 0).toNat % 26 := by
        rw [RandomStream.nextBelow, UInt64.toNat_mod]
        rfl
      have hrest (k : Nat) : s.next.2.draw k = s.draw (k + 1) := by
        rw [Nat.add_comm]
        exact s.draw_after 1 k
      rw [drawLetters, ih, hfirst, List.range_succ_eq_map, List.map_cons, List.map_map]
      simp only [hrest, Function.comp_def, Nat.succ_eq_add_one]

theorem letter_mod_cases (n : Nat) :
    (letter false (n % 26)).isLower ∧ (letter true (n % 26)).isUpper ∧
      (letter false (n % 26)).toUpper = letter true (n % 26) := by
  have hall : ∀ n < 26, (letter false n).isLower ∧ (letter true n).isUpper ∧
      (letter false n).toUpper = letter true n := by decide
  exact hall _ (Nat.mod_lt n (by decide))

section
variable (upperCase : Bool) (count more seed : Nat)

theorem length_seededLetters : (seededLetters upperCase count seed).length = count := by
  rw [seededLetters, List.length_map, List.length_range]

theorem case_of_mem_seededLetters {c : Char} (h : c ∈ seededLetters upperCase count seed) :
    if upperCase then c.isUpper else c.isLower := by
  obtain ⟨k, -, rfl⟩ := List.mem_map.mp h
  obtain ⟨hlower, hupper, -⟩ := letter_mod_cases ((RandomStream.ofSeed (.ofNat seed)).draw k).toNat
  cases upperCase with
  | false => exact hlower
  | true => exact hupper

theorem seededLetters_true :
    seededLetters true count seed = (seededLetters false count seed).map Char.toUpper := by
  have hupper (n : Nat) : (letter false (n % 26)).toUpper = letter true (n % 26) :=
    (letter_mod_cases n).2.2
  simp only [seededLetters, List.map_map, Function.comp_def, hupper]

theorem seededLetters_prefix :
    seededLetters upperCase count seed <+: seededLetters upperCase (count + more) seed := by
  rw [seededLetters, seededLetters, List.range_add, List.map_append]
  exact List.prefix_append _ _

end

namespace LetterToken

/-- Both numbers are written in ASCII digits, and neither is too large. -/
structure Honored (token : LetterToken) : Prop where
  count_digits : ∀ c ∈ token.count, isDigit c
  count_le : Numeral.value token.count ≤ mostLetters
  seed_digits : ∀ c ∈ token.seed, isDigit c
  seed_lt : Numeral.value token.seed < 2 ^ 64

theorem letters_of_honored {token : LetterToken} (h : token.Grammatical)
    (hhonored : token.Honored) : token.letters =
      seededLetters token.upperCase (Numeral.value token.count) (Numeral.value token.seed) := by
  have hcount : Numeral.digits? token.count = some (Numeral.value token.count) :=
    Numeral.digits?_eq_some_iff.mpr ⟨⟨h.count_ne_nil, hhonored.count_digits⟩, rfl⟩
  have hseed := Numeral.word64?_of_digits h.seed_ne_nil hhonored.seed_digits
  rw [if_pos hhonored.seed_lt] at hseed
  rw [letters, hcount, hseed]
  simp only [if_pos hhonored.count_le]
  exact drawLetters_eq_map _ _ _

/-- A sign is no digit, so the number of a token is read only if it is all digits. -/
theorem Grammatical.natural?_seed {token : LetterToken} (h : token.Grammatical) :
    Numeral.natural? token.seed = Numeral.digits? token.seed := by
  unfold Numeral.natural?
  split
  · next t hplus =>
    have hsign : isDecimalDigit '+' := h.seed_digits '+' (hplus ▸ List.mem_cons_self)
    exact absurd hsign (by decide)
  · rfl

theorem honored_of_read {token : LetterToken} (h : token.Grammatical) {count : Nat} {seed : UInt64}
    (hcount : Numeral.digits? token.count = some count) (hle : count ≤ mostLetters)
    (hseed : Numeral.word64? token.seed = some seed) : token.Honored := by
  obtain ⟨⟨-, hcountDigits⟩, rfl⟩ := Numeral.digits?_eq_some_iff.mp hcount
  rw [Numeral.word64?, h.natural?_seed, Option.bind_eq_some_iff] at hseed
  obtain ⟨n, hn, hword⟩ := hseed
  obtain ⟨⟨-, hseedDigits⟩, rfl⟩ := Numeral.digits?_eq_some_iff.mp hn
  exact ⟨hcountDigits, hle, hseedDigits, (Option.ite_none_right_eq_some.mp hword).1⟩

theorem letters_of_not_honored {token : LetterToken} (h : token.Grammatical)
    (hhonored : ¬ token.Honored) : token.letters = token.written := by
  unfold letters
  split
  · next count seed hcount hseed =>
    rw [if_neg fun hle => hhonored (honored_of_read h hcount hle hseed)]
  · rfl

end LetterToken

/-- What becomes of a piece. -/
def Yields : Piece LetterToken → Text → Prop
  | .char c, t => t = [c]
  | .token token, t =>
    token.Honored ∧ t = seededLetters token.upperCase (Numeral.value token.count)
      (Numeral.value token.seed) ∨
    ¬ token.Honored ∧ t = token.written

theorem yields_pieces {t : Text} {pieces : List (Piece LetterToken)}
    (h : Text.Leftmost BeginsLetters LetterToken.written t pieces) :
    List.Forall₂ Yields pieces (pieces.map (Piece.text LetterToken.letters)) := by
  induction h with
  | nil => exact .nil
  | char _ _ ih => exact .cons rfl ih
  | @token token _ _ _ hbegins _ _ ih =>
      refine .cons ?_ ih
      by_cases hhonored : token.Honored
      · exact .inl ⟨hhonored, LetterToken.letters_of_honored hbegins.1 hhonored⟩
      · exact .inr ⟨hhonored, LetterToken.letters_of_not_honored hbegins.1 hhonored⟩

/-- Letter tokens are found from left to right and do not overlap. One whose numbers are in ASCII
digits, at most 1024 letters from a seed of 64 bits, becomes so many letters of its case; all other
tokens and characters stay. The letters follow from the two numbers and the case alone: more letters
from one seed begin with the fewer, and those of the upper case are the others in capitals. -/
theorem replaceLetters_exact :
    (∀ t, ∃ (pieces : List (Piece LetterToken)) (outputs : List Text),
      (∀ cut, Text.Leftmost BeginsLetters LetterToken.written t cut ↔ cut = pieces) ∧
      replaceLetters t = outputs.flatten ∧ List.Forall₂ Yields pieces outputs) ∧
    (∀ upperCase count seed, (seededLetters upperCase count seed).length = count ∧
      ∀ c ∈ seededLetters upperCase count seed, if upperCase then c.isUpper else c.isLower) ∧
    (∀ count seed,
      seededLetters true count seed = (seededLetters false count seed).map Char.toUpper) ∧
    ∀ upperCase count more seed,
      seededLetters upperCase count seed <+: seededLetters upperCase (count + more) seed := by
  refine ⟨fun t => ?_, fun upperCase count seed => ?_, seededLetters_true, seededLetters_prefix⟩
  · refine ⟨_, _, fun cut => leftmost_letters_iff, List.flatMap_def, ?_⟩
    exact yields_pieces (leftmost_letters_iff.mpr rfl)
  · exact ⟨length_seededLetters upperCase count seed,
      fun _ => case_of_mem_seededLetters upperCase count seed⟩

example : replaceLetters "%a(3; 5)%%A(1025; 5)%%A(02;5)%".toList =
    "tzp%A(1025; 5)%TZ".toList := by decide +kernel

end UniqueId
end Placeholders
