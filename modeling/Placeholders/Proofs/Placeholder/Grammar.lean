import Mathlib.Data.List.TakeWhile
import Placeholders.Placeholder.Reader
import Placeholders.Proofs.Text.Position
import Placeholders.Proofs.Text.Splitting

/-!
The grammar of placeholders, stated on the written parts, and the exactness of the readers of single
parts against it. Where the arguments end is not settled here: the grammar alone leaves a choice.
-/

namespace Placeholders

/-- Blanks, at most one sign, digits, blanks. Nothing at all is an element; so is a lone sign. -/
def IndexItem (t : Text) : Prop :=
  ∃ lead sign digits trail : Text, t = lead ++ sign ++ digits ++ trail ∧
    (∀ c ∈ lead, isBlank c) ∧ (sign = [] ∨ sign = ['+'] ∨ sign = ['-']) ∧
    (∀ c ∈ digits, isDigit c) ∧ ∀ c ∈ trail, isBlank c

def EntropyClause.Grammatical (e : EntropyClause) : Prop :=
  ∀ blanks digits, e.extra = some (blanks, digits) →
    (∀ c ∈ blanks, isBlank c) ∧ digits ≠ [] ∧ ∀ c ∈ digits, isDigit c

namespace Placeholder

def GrammaticalName (name : Text) : Prop := name ≠ [] ∧ ∀ c ∈ name, isNameChar c

def GrammaticalIndexes (indexes : Option (List Text)) : Prop :=
  ∀ elements, indexes = some elements → elements ≠ [] ∧ ∀ e ∈ elements, IndexItem e

def GrammaticalEntropy (entropy : Option EntropyClause) : Prop :=
  ∀ e, entropy = some e → e.Grammatical

/-- The parts are what they may be. The arguments may hold anything but the end of their line. -/
structure Grammatical (p : Placeholder) : Prop where
  name : GrammaticalName p.name
  indexes : GrammaticalIndexes p.indexes
  arguments : '\n' ∉ p.arguments
  entropy : GrammaticalEntropy p.entropy

/-- A text begins with a placeholder and goes on with `rest`. -/
structure Opens (p : Placeholder) (t rest : Text) : Prop where
  grammatical : p.Grammatical
  text : t = p.written ++ rest

/-- All that follows the arguments of a placeholder. -/
def writtenClosing (entropy : Option EntropyClause) : Text :=
  ')' :: '}' :: writtenEntropy entropy ++ ['}']

theorem written_eq (p : Placeholder) :
    p.written = '{' :: '{' :: p.name ++ writtenIndexes p.indexes ++ '(' :: p.arguments ++
      writtenClosing p.entropy := by
  simp [written, writtenClosing]

end Placeholder

theorem not_isBlank_of_isDigit {c : Char} (h : isDigit c) : isBlank c = false := by
  by_contra hne
  have hb : isBlank c := eq_true_of_ne_false hne
  simp only [isBlank, Bool.or_eq_true, decide_eq_true_eq] at hb
  rcases hb with (((rfl | rfl) | rfl) | rfl) | rfl <;> revert h <;> decide

theorem dropWhile_digits_blanks {t : Text} :
    (t.dropWhile isDigit).dropWhile isBlank = [] ↔
      ∃ digits trail, t = digits ++ trail ∧ (∀ c ∈ digits, isDigit c) ∧ ∀ c ∈ trail, isBlank c := by
  rw [List.dropWhile_eq_nil_iff]
  constructor
  · intro h
    refine ⟨t.takeWhile isDigit, t.dropWhile isDigit, ?_, ?_, h⟩
    · exact List.takeWhile_append_dropWhile.symm
    · intro c hc
      exact List.mem_takeWhile_imp hc
  · intro h c hc
    obtain ⟨digits, trail, rfl, hdigits, htrail⟩ := h
    rw [List.dropWhile_append_of_pos hdigits] at hc
    exact htrail c ((List.dropWhile_suffix _).subset hc)

theorem indexItem_of_isIndexItem {t : Text} (h : isIndexItem t) : IndexItem t := by
  have ht : t = t.takeWhile isBlank ++ t.dropWhile isBlank :=
    List.takeWhile_append_dropWhile.symm
  have hlead : ∀ c ∈ t.takeWhile isBlank, isBlank c := fun c hc => List.mem_takeWhile_imp hc
  unfold isIndexItem at h
  simp only [List.isEmpty_iff] at h
  split at h
  · next r hr =>
    obtain ⟨digits, trail, rfl, hdigits, htrail⟩ := dropWhile_digits_blanks.mp h
    rw [hr] at ht
    exact ⟨_, ['+'], digits, trail, by simpa using ht, hlead, by simp, hdigits, htrail⟩
  · next r hr =>
    obtain ⟨digits, trail, rfl, hdigits, htrail⟩ := dropWhile_digits_blanks.mp h
    rw [hr] at ht
    exact ⟨_, ['-'], digits, trail, by simpa using ht, hlead, by simp, hdigits, htrail⟩
  · obtain ⟨digits, trail, hr, hdigits, htrail⟩ := dropWhile_digits_blanks.mp h
    rw [hr] at ht
    exact ⟨_, [], digits, trail, by simpa using ht, hlead, by simp, hdigits, htrail⟩

theorem isIndexItem_of_indexItem {t : Text} (h : IndexItem t) : isIndexItem t := by
  obtain ⟨lead, sign, digits, trail, rfl, hlead, hsign, hdigits, htrail⟩ := h
  have hend : ((digits ++ trail).dropWhile isDigit).dropWhile isBlank = [] :=
    dropWhile_digits_blanks.mpr ⟨digits, trail, rfl, hdigits, htrail⟩
  unfold isIndexItem
  simp only [List.isEmpty_iff, List.append_assoc]
  rw [List.dropWhile_append_of_pos hlead]
  cases hsign with
  | inl hnone =>
      subst hnone
      cases digits with
      | nil =>
          -- Without sign and digits the leading blanks take in the trailing ones.
          have hnil : trail.dropWhile isBlank = [] := List.dropWhile_eq_nil_iff.mpr htrail
          simp [hnil]
      | cons d digits =>
          have hd := hdigits d (List.mem_cons_self ..)
          have hdrop : (d :: (digits ++ trail)).dropWhile isBlank = d :: (digits ++ trail) :=
            List.dropWhile_cons_of_neg (by simp [not_isBlank_of_isDigit hd])
          simp only [List.nil_append, List.cons_append, hdrop]
          split
          · next heq => obtain ⟨rfl, _⟩ := List.cons.inj heq; contradiction
          · next heq => obtain ⟨rfl, _⟩ := List.cons.inj heq; contradiction
          · exact hend
  | inr hsign =>
      cases hsign with
      | inl hplus =>
          subst hplus
          exact hend
      | inr hminus =>
          subst hminus
          exact hend

theorem isIndexItem_iff {t : Text} : isIndexItem t ↔ IndexItem t :=
  ⟨indexItem_of_isIndexItem, isIndexItem_of_indexItem⟩

theorem IndexItem.notMem {t : Text} (h : IndexItem t) {c : Char} (hblank : isBlank c = false)
    (hdigit : isDigit c = false) (hplus : c ≠ '+') (hminus : c ≠ '-') : c ∉ t := by
  obtain ⟨lead, sign, digits, trail, rfl, hlead, hsign, hdigits, htrail⟩ := h
  have hs : c ∉ sign := by
    cases hsign with
    | inl hnone => simp [hnone]
    | inr hsign =>
        cases hsign with
        | inl hsign => simp [hsign, hplus]
        | inr hsign => simp [hsign, hminus]
  simp only [List.mem_append, not_or]
  refine ⟨⟨⟨fun hc => ?_, hs⟩, fun hc => ?_⟩, fun hc => ?_⟩
  · simp [hlead c hc] at hblank
  · simp [hdigits c hc] at hdigit
  · simp [htrail c hc] at hblank

namespace Placeholder

theorem readIndexes?_written {indexes : Option (List Text)} (h : GrammaticalIndexes indexes)
    (rest : Text) :
    readIndexes? (writtenIndexes indexes ++ '(' :: rest) = some (indexes, '(' :: rest) := by
  cases indexes with
  | none => rfl
  | some elements =>
      obtain ⟨hne, hall⟩ := h elements rfl
      have hcomma : ∀ e ∈ elements, ',' ∉ e := fun e he =>
        (hall e he).notMem (by decide) (by decide) (by decide) (by decide)
      have hbracket : ']' ∉ Text.join [','] elements :=
        Text.notMem_join (by decide) fun e he =>
          (hall e he).notMem (by decide) (by decide) (by decide) (by decide)
      have hcut := Text.cutAt_singleton hbracket ('(' :: rest)
      have hitems : ∀ e ∈ elements, isIndexItem e := fun e he => isIndexItem_iff.mpr (hall e he)
      simpa [writtenIndexes, readIndexes?, hcut, Text.splitOn_join ',' hne hcomma] using hitems

theorem grammaticalIndexes_of_readIndexes? {t rest : Text} {indexes : Option (List Text)}
    (h : readIndexes? t = some (indexes, rest)) : GrammaticalIndexes indexes := by
  intro elements helements
  subst helements
  unfold readIndexes? at h
  split at h
  · simp only [Option.bind_eq_some_iff, Prod.exists] at h
    obtain ⟨inside, r, _, h⟩ := h
    split at h
    · next hall =>
      simp only [Option.some.injEq, Prod.mk.injEq] at h
      obtain ⟨rfl, rfl⟩ := h
      refine ⟨Text.splitOn_ne_nil ',' inside, fun e he => ?_⟩
      exact isIndexItem_iff.mp (List.all_eq_true.mp hall e he)
    · contradiction
  · simp at h

end Placeholder

namespace EntropyClause

theorem readFlag?_flag (b : Bool) (rest : Text) : readFlag? (flag b ++ rest) = some (b, rest) := by
  cases b <;> rfl

theorem readExtra?_written {blanks digits : Text} (hblanks : ∀ c ∈ blanks, isBlank c)
    (hne : digits ≠ []) (hdigits : ∀ c ∈ digits, isDigit c) (rest : Text) :
    readExtra? (blanks ++ digits ++ ')' :: rest) = some ((blanks, digits), ')' :: rest) := by
  obtain ⟨d, ds, rfl⟩ := List.exists_cons_of_ne_nil hne
  have hd : isBlank d = false := not_isBlank_of_isDigit (hdigits d (List.mem_cons_self ..))
  have hrun : (blanks ++ (d :: ds) ++ ')' :: rest) = blanks ++ d :: (ds ++ ')' :: rest) := by simp
  have htake := Text.takeWhile_run hdigits (show isDigit ')' = false by decide) rest
  have hdrop := Text.dropWhile_run hdigits (show isDigit ')' = false by decide) rest
  rw [List.cons_append] at htake hdrop
  simp only [readExtra?, hrun, Text.takeWhile_run hblanks hd, Text.dropWhile_run hblanks hd, htake,
    hdrop, hne, if_false]

theorem readInside?_written {e : EntropyClause} (h : e.Grammatical) {t rest : Text}
    (ht : '(' :: t = e.written ++ rest) : readInside? t = some (e, rest) := by
  obtain ⟨mixes, extra⟩ := e
  cases extra with
  | none =>
      obtain rfl : t = flag mixes ++ ')' :: rest := by simpa [written] using ht
      simp [readInside?, readFlag?_flag]
  | some extra =>
      obtain ⟨blanks, digits⟩ := extra
      obtain ⟨hblanks, hne, hdigits⟩ := h blanks digits rfl
      obtain rfl : t = flag mixes ++ ',' :: (blanks ++ digits ++ ')' :: rest) := by
        simpa [written] using ht
      simp only [readInside?, readFlag?_flag, Option.bind_some,
        readExtra?_written hblanks hne hdigits]

theorem grammatical_of_readExtra? {t rest blanks digits : Text}
    (h : readExtra? t = some ((blanks, digits), rest)) :
    (∀ c ∈ blanks, isBlank c) ∧ digits ≠ [] ∧ ∀ c ∈ digits, isDigit c := by
  simp only [readExtra?] at h
  split at h
  · contradiction
  · next hne =>
    simp only [Option.some.injEq, Prod.mk.injEq] at h
    obtain ⟨⟨rfl, rfl⟩, _⟩ := h
    exact ⟨fun c hc => List.mem_takeWhile_imp hc, hne, fun c hc => List.mem_takeWhile_imp hc⟩

theorem grammatical_of_readInside? {t rest : Text} {e : EntropyClause}
    (h : readInside? t = some (e, rest)) : e.Grammatical := by
  intro blanks digits hextra
  simp only [readInside?, Option.bind_eq_some_iff, Prod.exists] at h
  obtain ⟨b, r, _, h⟩ := h
  split at h
  · simp only [Option.some.injEq, Prod.mk.injEq] at h
    obtain ⟨rfl, _⟩ := h
    contradiction
  · split at h
    · next hread =>
      simp only [Option.some.injEq, Prod.mk.injEq] at h
      obtain ⟨rfl, _⟩ := h
      obtain rfl := Option.some.inj hextra
      exact grammatical_of_readExtra? hread
    · contradiction
  · contradiction

end EntropyClause

namespace Placeholder

theorem readClosing?_written {entropy : Option EntropyClause} (h : GrammaticalEntropy entropy)
    (rest : Text) : readClosing? (writtenClosing entropy ++ rest) = some (entropy, rest) := by
  cases entropy with
  | none => rfl
  | some e =>
      -- The clause is written with the parenthesis that the reader has already passed.
      obtain ⟨t, ht⟩ : ∃ t, '(' :: t = e.written ++ '}' :: rest := ⟨_, rfl⟩
      have hread := EntropyClause.readInside?_written (h e rfl) ht
      have hwritten : writtenClosing (some e) ++ rest = ')' :: '}' :: '(' :: t := by
        simp [writtenClosing, writtenEntropy, ht]
      simp only [hwritten, readClosing?, hread]

theorem grammaticalEntropy_of_readClosing? {t rest : Text} {entropy : Option EntropyClause}
    (h : readClosing? t = some (entropy, rest)) : GrammaticalEntropy entropy := by
  intro e he
  subst he
  unfold readClosing? at h
  split at h
  · simp at h
  · split at h
    · next hread =>
      simp only [Option.some.injEq, Prod.mk.injEq] at h
      obtain ⟨rfl, _⟩ := h
      exact EntropyClause.grammatical_of_readInside? hread
    · contradiction
  · contradiction

/-- What follows the arguments is read in one way only. -/
theorem readClosing?_eq_some_iff {t rest : Text} {entropy : Option EntropyClause} :
    readClosing? t = some (entropy, rest) ↔
      GrammaticalEntropy entropy ∧ t = writtenClosing entropy ++ rest := by
  constructor
  · intro h
    refine ⟨grammaticalEntropy_of_readClosing? h, ?_⟩
    simpa [writtenClosing] using readClosing?_eq_some h
  · intro h
    obtain ⟨hentropy, rfl⟩ := h
    exact readClosing?_written hentropy rest

end Placeholder
end Placeholders
