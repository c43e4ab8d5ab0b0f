import Placeholders.Proofs.Placeholder.Delimitation
import Placeholders.Proofs.Text.Numeral
import Placeholders.Proofs.Text.Trimming

/-!
Writing a call as a placeholder, with space wherever the grammar leaves room for it, and reading it
back. The first `)}` ends the arguments, so that they are read whole if they hold none.
-/

namespace Placeholders

/-- The elements of an index list say these indexes: each is one index between blanks, or blanks. -/
inductive WritesIndexes : List Text → List Int64 → Prop where
  | nil : WritesIndexes [] []
  | empty {element : Text} {elements : List Text} {indexes : List Int64} :
      (∀ c ∈ element, isBlank c) → WritesIndexes elements indexes →
      WritesIndexes (element :: elements) indexes
  | index {before after : Text} {elements : List Text} {indexes : List Int64} (i : Int64) :
      (∀ c ∈ before, isBlank c) → (∀ c ∈ after, isBlank c) → WritesIndexes elements indexes →
      WritesIndexes ((before ++ Numeral.ofInt i.toInt ++ after) :: elements) (i :: indexes)

def SpaceOnLine (t : Text) : Prop := ∀ c ∈ t, isSpace c ∧ c ≠ '\n'

instance (t : Text) : Decidable (SpaceOnLine t) :=
  List.decidableBAll (fun c => isSpace c ∧ c ≠ '\n') t

theorem SpaceOnLine.notMem {t : Text} (h : SpaceOnLine t) {c : Char}
    (hc : isSpace c = false ∨ c = '\n') : c ∉ t := by
  intro hmem
  obtain ⟨hspace, hline⟩ := h c hmem
  cases hc with
  | inl hc => simp [hc] at hspace
  | inr hc => exact hline hc

/-- The pieces between commas say these arguments, each with space around it. -/
inductive WritesArguments : List Text → List Text → Prop where
  | nil : WritesArguments [] []
  | cons {before argument after : Text} {pieces arguments : List Text} :
      SpaceOnLine before → SpaceOnLine after → WritesArguments pieces arguments →
      WritesArguments ((before ++ argument ++ after) :: pieces) (argument :: arguments)

/-- Arguments that can be written: a single empty one reads as none, and what divides or ends
arguments cannot stand in them. -/
structure Writable (arguments : List Text) : Prop where
  ne_blank : arguments ≠ [[]]
  trimmed : ∀ a ∈ arguments, a.trim = a
  comma : ∀ a ∈ arguments, ',' ∉ a
  line : ∀ a ∈ arguments, '\n' ∉ a
  closing : ¬ [')', '}'] <:+: Text.join [','] arguments

def EntropyClause.ofEntropy (e : Entropy) : EntropyClause :=
  ⟨e.mixesIdentity, some ([], Numeral.ofNat e.extra.toNat)⟩

/-- The text of a call without any space. -/
def writeCall (name : Text) (indexes : List Int64) (arguments : List Text)
    (entropy : Option Entropy) : Text :=
  '{' :: '{' :: name ++
    '[' :: Text.join [','] (indexes.map fun i => Numeral.ofInt i.toInt) ++
    ']' :: '(' :: Text.join [','] arguments ++ ')' :: '}' ::
    (match entropy with
      | none => []
      | some e =>
        '(' :: EntropyClause.flag e.mixesIdentity ++ ',' :: Numeral.ofNat e.extra.toNat ++ [')']) ++
    ['}']

namespace Placeholder

/-- A placeholder with brackets, from the pieces between its commas. -/
def spelled (name : Text) (elements pieces : List Text) (entropy : Option Entropy) :
    Placeholder :=
  ⟨name, some elements, Text.join [','] pieces, entropy.map .ofEntropy⟩

/-- An earlier end of the arguments would stand inside them, or begin with their last
parenthesis and go on with the one that closes. -/
theorem readArguments?_of_no_closing {arguments : Text} {entropy : Option EntropyClause}
    (hline : '\n' ∉ arguments) (hclosing : ¬ [')', '}'] <:+: arguments)
    (hentropy : GrammaticalEntropy entropy) (rest : Text) :
    readArguments? (arguments ++ (writtenClosing entropy ++ rest)) =
      some (arguments, entropy, rest) := by
  refine readArguments?_eq_some_iff.mpr ⟨⟨hline, hentropy, rfl⟩, fun a e r hend => ?_⟩
  by_contra hlt
  obtain ⟨d, rfl⟩ : a <+: arguments := List.prefix_of_prefix_length_le ⟨_, hend.text.symm⟩
    ⟨_, rfl⟩ (Nat.le_of_lt (Nat.lt_of_not_le hlt))
  have htext : d ++ (writtenClosing entropy ++ rest) = writtenClosing e ++ r := by
    simpa only [List.append_assoc, List.append_cancel_left_eq] using hend.text
  match d with
  | [] => simp at hlt
  | [c] => simp [writtenClosing] at htext
  | c :: c' :: d =>
      obtain ⟨rfl, rfl, _⟩ : c = ')' ∧ c' = '}' ∧ _ := by
        simpa [writtenClosing] using htext
      exact hclosing ⟨a, d, by simp⟩

theorem read?_of_no_closing {p : Placeholder} (hp : p.Grammatical)
    (hclosing : ¬ [')', '}'] <:+: p.arguments) : read? p.written = some (p, []) := by
  have hread := readArguments?_of_no_closing hp.arguments hclosing hp.entropy []
  rw [List.append_nil] at hread
  rw [written_eq_head, read?_head hp.name hp.indexes, hread]
  rfl

end Placeholder

theorem not_isSpace_of_isDigit {c : Char} (h : isDigit c) : isSpace c = false := by
  simp only [isDigit, Bool.and_eq_true, decide_eq_true_eq, Char.le_def, UInt32.le_iff_toNat_le] at h
  have hlow : 48 ≤ c.toNat := h.1
  have hhigh : c.toNat ≤ 57 := h.2
  simp only [isSpace, Bool.or_eq_false_iff, Bool.and_eq_false_iff, decide_eq_false_iff_not]
  omega

theorem Numeral.trim_ofInt (n : Int) : (ofInt n).trim = ofInt n := by
  have hdigits : ∀ c ∈ ofNat n.natAbs, isSpace c = false :=
    fun c hc => not_isSpace_of_isDigit (isDigit_of_mem_ofNat hc)
  apply Text.trim_eq_self
  unfold ofInt
  split
  · intro c hc
    cases List.mem_cons.mp hc with
    | inl hminus =>
        subst hminus
        decide
    | inr hdigit => exact hdigits c hdigit
  · exact hdigits

theorem Numeral.ofInt_ne_nil (n : Int) : ofInt n ≠ [] := by
  unfold ofInt
  split
  · exact List.cons_ne_nil _ _
  · exact ofNat_ne_nil _

theorem IndexItem.of_blank {t : Text} (h : ∀ c ∈ t, isBlank c) : IndexItem t :=
  ⟨t, [], [], [], by simp, h, by simp, by simp, by simp⟩

theorem IndexItem.of_ofInt {before after : Text} (n : Int) (hbefore : ∀ c ∈ before, isBlank c)
    (hafter : ∀ c ∈ after, isBlank c) : IndexItem (before ++ Numeral.ofInt n ++ after) := by
  have hdigits : ∀ c ∈ Numeral.ofNat n.natAbs, isDigit c := fun c => Numeral.isDigit_of_mem_ofNat
  unfold Numeral.ofInt
  split
  · exact ⟨before, ['-'], Numeral.ofNat n.natAbs, after, by simp, hbefore, by simp, hdigits, hafter⟩
  · exact ⟨before, [], Numeral.ofNat n.natAbs, after, by simp, hbefore, by simp, hdigits, hafter⟩

namespace WritesIndexes

variable {elements : List Text} {indexes : List Int64}

theorem indexItem (h : WritesIndexes elements indexes) : ∀ e ∈ elements, IndexItem e := by
  induction h with
  | nil => simp
  | empty hblank _ ih => exact List.forall_mem_cons.mpr ⟨.of_blank hblank, ih⟩
  | index i hbefore hafter _ ih =>
      exact List.forall_mem_cons.mpr ⟨.of_ofInt i.toInt hbefore hafter, ih⟩

theorem indexesOf_eq (h : WritesIndexes elements indexes) : indexesOf elements = .ok indexes := by
  induction h with
  | nil => rfl
  | empty hblank _ ih =>
      have htrim := Text.trim_eq_nil fun c hc => isSpace_of_isBlank (hblank c hc)
      rw [indexesOf, htrim, if_pos rfl, ih]
  | index i hbefore hafter _ ih =>
      have htrim := Text.trim_spaced (fun c hc => isSpace_of_isBlank (hbefore c hc))
        (fun c hc => isSpace_of_isBlank (hafter c hc)) (Numeral.trim_ofInt i.toInt)
      rw [indexesOf, htrim, if_neg (Numeral.ofInt_ne_nil _), Numeral.signed64?_ofInt, ih]
      rfl

theorem plain (indexes : List Int64) :
    WritesIndexes (indexes.map fun i => Numeral.ofInt i.toInt) indexes := by
  induction indexes with
  | nil => exact .nil
  | cons i indexes ih =>
      have hcons := @WritesIndexes.index [] [] _ _ i (by simp) (by simp) ih
      simpa using hcons

end WritesIndexes

namespace WritesArguments

variable {pieces arguments : List Text}

theorem map_trim (h : WritesArguments pieces arguments) (htrim : ∀ a ∈ arguments, a.trim = a) :
    pieces.map Text.trim = arguments := by
  induction h with
  | nil => rfl
  | cons hbefore hafter _ ih =>
      obtain ⟨hhead, htail⟩ := List.forall_mem_cons.mp htrim
      rw [List.map_cons, ih htail, Text.trim_spaced (fun c hc => (hbefore c hc).1)
        (fun c hc => (hafter c hc).1) hhead]

/-- Space brings neither a comma nor a closing nor the end of the line into the pieces. -/
theorem forall_pieces (h : WritesArguments pieces arguments) (P : Text → Prop)
    (hspaced : ∀ before argument after, SpaceOnLine before → SpaceOnLine after → P argument →
      P (before ++ argument ++ after))
    (harguments : ∀ a ∈ arguments, P a) : ∀ p ∈ pieces, P p := by
  induction h with
  | nil => simp
  | cons hbefore hafter _ ih =>
      obtain ⟨hhead, htail⟩ := List.forall_mem_cons.mp harguments
      exact List.forall_mem_cons.mpr ⟨hspaced _ _ _ hbefore hafter hhead, ih htail⟩

theorem plain (arguments : List Text) : WritesArguments arguments arguments := by
  induction arguments with
  | nil => exact .nil
  | cons a arguments ih =>
      have hnone : SpaceOnLine [] := by simp [SpaceOnLine]
      have hcons := @WritesArguments.cons [] a [] _ _ hnone hnone ih
      simpa using hcons

theorem notMem (h : WritesArguments pieces arguments) {c : Char}
    (hc : isSpace c = false ∨ c = '\n') (harguments : ∀ a ∈ arguments, c ∉ a) :
    ∀ p ∈ pieces, c ∉ p := by
  refine h.forall_pieces (c ∉ ·) (fun before argument after hbefore hafter ha => ?_) harguments
  simp only [List.mem_append, not_or]
  exact ⟨⟨hbefore.notMem hc, ha⟩, hafter.notMem hc⟩

theorem not_closing (h : WritesArguments pieces arguments)
    (harguments : ∀ a ∈ arguments, ¬ [')', '}'] <:+: a) : ∀ p ∈ pieces, ¬ [')', '}'] <:+: p := by
  refine h.forall_pieces _ (fun before argument after hbefore hafter ha hmark => ?_) harguments
  have hspace {t : Text} (ht : SpaceOnLine t) : ∀ c ∈ t, c ∉ [')', '}'] := by
    intro c hc hin
    have hall : ∀ c ∈ [')', '}'], isSpace c = false :=
      List.forall_mem_cons.mpr ⟨rfl, List.forall_mem_singleton.mpr rfl⟩
    exact ht.notMem (.inl (hall c hin)) hc
  exact ha (Text.infix_of_infix_surrounded (hspace hbefore) (hspace hafter) hmark)

end WritesArguments

theorem argumentsOf_join {pieces arguments : List Text} (hcomma : ∀ p ∈ pieces, ',' ∉ p)
    (htrim : pieces.map Text.trim = arguments) (hne : arguments ≠ [[]]) :
    argumentsOf (Text.join [','] pieces) = arguments := by
  by_cases hnil : pieces = []
  · subst hnil
    exact htrim
  · rw [argumentsOf, Text.splitOn_join ',' hnil hcomma, htrim]
    split
    · contradiction
    · rfl

theorem EntropyClause.read_ofEntropy (e : Entropy) : (ofEntropy e).read = .ok e := by
  simp only [EntropyClause.read, ofEntropy, Numeral.word64?_ofNat]

theorem EntropyClause.grammatical_ofEntropy (e : Entropy) : (ofEntropy e).Grammatical := by
  intro blanks digits hextra
  obtain ⟨rfl, rfl⟩ : [] = blanks ∧ Numeral.ofNat e.extra.toNat = digits := by
    simpa [ofEntropy] using hextra
  exact ⟨by simp, Numeral.ofNat_ne_nil _, fun c => Numeral.isDigit_of_mem_ofNat⟩

theorem Placeholder.readEntropy_spelled (name : Text) (elements pieces : List Text)
    (entropy : Option Entropy) :
    (spelled name elements pieces entropy).readEntropy = .ok (entropy.getD {}) := by
  cases entropy with
  | none => rfl
  | some e => exact EntropyClause.read_ofEntropy e

namespace Placeholder

variable {name : Text} {elements pieces : List Text} {indexes : List Int64}

theorem grammatical_spelled (hname : GrammaticalName name) (hne : elements ≠ [])
    (hindexes : WritesIndexes elements indexes) (hline : ∀ p ∈ pieces, '\n' ∉ p)
    (entropy : Option Entropy) : (spelled name elements pieces entropy).Grammatical where
  name := hname
  indexes := by
    intro items hitems
    obtain rfl := Option.some.inj hitems
    exact ⟨hne, hindexes.indexItem⟩
  arguments := Text.notMem_join (by decide) hline
  entropy := by
    intro clause hclause
    obtain ⟨e, _, rfl⟩ := Option.map_eq_some_iff.mp hclause
    exact EntropyClause.grammatical_ofEntropy e

theorem written_spelled (name : Text) (indexes : List Int64) (arguments : List Text)
    (entropy : Option Entropy) :
    (spelled name (indexes.map fun i => Numeral.ofInt i.toInt) arguments entropy).written =
      writeCall name indexes arguments entropy := by
  cases entropy with
  | none => simp [spelled, written, writtenIndexes, writtenEntropy, writeCall]
  | some e =>
      simp [spelled, written, writtenIndexes, writtenEntropy, writeCall, EntropyClause.ofEntropy,
        EntropyClause.written]

theorem parse_of_elements (hname : GrammaticalName name) (hne : elements ≠ [])
    (hindexes : WritesIndexes elements indexes) (hline : ∀ p ∈ pieces, '\n' ∉ p)
    (hclosing : ∀ p ∈ pieces, ¬ [')', '}'] <:+: p) (entropy : Option Entropy) :
    Invocation.parse (spelled name elements pieces entropy).written =
      .ok ⟨(spelled name elements pieces entropy).written, lookupName name, indexes,
        argumentsOf (Text.join [','] pieces), entropy.getD {}⟩ := by
  have hp := grammatical_spelled hname hne hindexes hline entropy
  have hend : ¬ [')', '}'] <:+: (spelled name elements pieces entropy).arguments := by
    intro hmark
    obtain ⟨p, hp, hmark⟩ :=
      Text.exists_infix_of_infix_join (List.cons_ne_nil _ _) (by decide) hmark
    exact hclosing p hp hmark
  rw [parse_written (read?_of_no_closing hp hend), invocation]
  simp only [readEntropy_spelled]
  simp only [spelled, Option.getD_some, hindexes.indexesOf_eq]

theorem parse_of_pieces (hname : GrammaticalName name) (hindexes : WritesIndexes elements indexes)
    (hline : ∀ p ∈ pieces, '\n' ∉ p) (hclosing : ∀ p ∈ pieces, ¬ [')', '}'] <:+: p)
    (entropy : Option Entropy) :
    Invocation.parse (spelled name elements pieces entropy).written =
      .ok ⟨(spelled name elements pieces entropy).written, lookupName name, indexes,
        argumentsOf (Text.join [','] pieces), entropy.getD {}⟩ := by
  by_cases hnil : elements = []
  · -- Brackets around nothing are read as brackets around one empty element.
    subst hnil
    have hblank : WritesIndexes [[]] indexes := .empty (by simp) hindexes
    exact parse_of_elements hname (List.cons_ne_nil _ _) hblank hline hclosing entropy
  · exact parse_of_elements hname hnil hindexes hline hclosing entropy

end Placeholder

namespace Invocation

open Placeholder

theorem parse_of_writesArguments {name : Text} {elements pieces arguments : List Text}
    {indexes : List Int64} (hname : GrammaticalName name) (harguments : Writable arguments)
    (hindexes : WritesIndexes elements indexes) (hpieces : WritesArguments pieces arguments)
    (entropy : Option Entropy) :
    parse (spelled name elements pieces entropy).written =
      .ok ⟨(spelled name elements pieces entropy).written, lookupName name, indexes, arguments,
        entropy.getD {}⟩ := by
  have hcomma := hpieces.notMem (.inl (by decide)) harguments.comma
  have hline := hpieces.notMem (.inr rfl) harguments.line
  have hclosing := hpieces.not_closing fun a ha hmark =>
    harguments.closing (hmark.trans (Text.infix_join_of_mem ha))
  rw [parse_of_pieces hname hindexes hline hclosing, argumentsOf_join hcomma
    (hpieces.map_trim harguments.trimmed) harguments.ne_blank]

/-- What is written is read: a placeholder gives back the name with its dots replaced, the indexes,
the arguments and the entropy that it was written for, whatever space and empty elements stand
between them. Without an entropy clause the identity is mixed in and nothing is added. Space alone
between the parentheses is no argument. -/
theorem parse_spelled {name : Text} {arguments : List Text} (hname : GrammaticalName name)
    (harguments : Writable arguments) (indexes : List Int64) :
    (∀ entropy, parse (writeCall name indexes arguments entropy) =
      .ok ⟨writeCall name indexes arguments entropy, lookupName name, indexes, arguments,
        entropy.getD ⟨true, 0⟩⟩) ∧
    (∀ elements pieces, WritesIndexes elements indexes → WritesArguments pieces arguments →
      ∀ entropy : Option Entropy,
        parse (spelled name elements pieces entropy).written =
          .ok ⟨(spelled name elements pieces entropy).written, lookupName name, indexes, arguments,
            entropy.getD ⟨true, 0⟩⟩) ∧
    ∀ elements gap, WritesIndexes elements indexes → SpaceOnLine gap →
      ∀ entropy : Option Entropy,
        parse (spelled name elements [gap] entropy).written =
          .ok ⟨(spelled name elements [gap] entropy).written, lookupName name, indexes, [],
            entropy.getD ⟨true, 0⟩⟩ := by
  refine ⟨?_, ?_, ?_⟩
  · intro entropy
    rw [← written_spelled]
    exact parse_of_writesArguments hname harguments (.plain indexes) (.plain arguments) entropy
  · intro elements pieces hindexes hpieces entropy
    exact parse_of_writesArguments hname harguments hindexes hpieces entropy
  · intro elements gap hindexes hgap entropy
    have hline : '\n' ∉ gap := hgap.notMem (.inr rfl)
    have hclosing : ¬ [')', '}'] <:+: gap := by
      intro hmark
      have hmem : ')' ∈ gap := hmark.subset (List.mem_cons_self ..)
      exact hgap.notMem (.inl (by decide)) hmem
    have hnone : argumentsOf gap = [] := by
      rw [argumentsOf, Text.splitOn_of_notMem ',' (hgap.notMem (.inl (by decide))),
        List.map_singleton, Text.trim_eq_nil fun c hc => (hgap c hc).1]
    have hparse := parse_of_pieces hname hindexes (List.forall_mem_singleton.mpr hline)
      (List.forall_mem_singleton.mpr hclosing) entropy
    rwa [Text.join, hnone] at hparse

/-- The least index, an argument that ends in a parenthesis, and the greatest number. -/
theorem parse_spelled_bounds :
    GrammaticalName "A.b".toList ∧ Writable ["x)".toList, []] ∧
    parse "{{A.b[-9223372036854775808,3](x),)}(false,18446744073709551615)}".toList =
      .ok ⟨"{{A.b[-9223372036854775808,3](x),)}(false,18446744073709551615)}".toList, "A_b".toList,
        [Int64.minValue, 3], ["x)".toList, []], ⟨false, 18446744073709551615⟩⟩ ∧
    parse "\x7b\x7bA.b[ -9223372036854775808,,\n, 3](x) ,\t)\x7d\x7d".toList =
      .ok ⟨"\x7b\x7bA.b[ -9223372036854775808,,\n, 3](x) ,\t)\x7d\x7d".toList, "A_b".toList,
        [Int64.minValue, 3], ["x)".toList, []], ⟨true, 0⟩⟩ := by
  have hname : GrammaticalName "A.b".toList := ⟨by decide, List.all_eq_true.mp (by decide)⟩
  have harguments : Writable ["x)".toList, []] :=
    ⟨by decide, by decide, by decide, by decide, Text.cutAt_eq_none_iff.mp (by decide)⟩
  obtain ⟨hplain, hspaced, _⟩ := parse_spelled hname harguments [Int64.minValue, 3]
  have hindexes : WritesIndexes [" -9223372036854775808".toList, [], ['\n'], " 3".toList]
      [Int64.minValue, 3] := by
    have hlow : " -9223372036854775808".toList =
        [' '] ++ Numeral.ofInt Int64.minValue.toInt ++ [] := by decide +kernel
    have hthree : " 3".toList = [' '] ++ Numeral.ofInt (Int64.toInt 3) ++ [] := by decide +kernel
    rw [hlow, hthree]
    have hnone := List.forall_mem_nil (isBlank · = true)
    have hspace : ∀ c ∈ [' '], isBlank c := List.forall_mem_singleton.mpr rfl
    have hline : ∀ c ∈ ['\n'], isBlank c := List.forall_mem_singleton.mpr rfl
    exact .index _ hspace hnone <| .empty hnone <| .empty hline <| .index _ hspace hnone .nil
  have hpieces : WritesArguments ["x) ".toList, ['\t']] ["x)".toList, []] :=
    @WritesArguments.cons [] "x)".toList [' '] _ _ (by decide) (by decide) <|
      @WritesArguments.cons ['\t'] [] [] _ _ (by decide) (by decide) .nil
  refine ⟨hname, harguments, ?_, ?_⟩
  · exact hplain (some ⟨false, 18446744073709551615⟩)
  · exact hspaced _ _ hindexes hpieces none

end Invocation
end Placeholders
