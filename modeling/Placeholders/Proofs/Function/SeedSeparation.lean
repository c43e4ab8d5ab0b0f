import Mathlib.Data.List.Forall2
import Placeholders.Proofs.Function.DigitTokens
import Placeholders.Proofs.Function.LetterTokens

/-!
What an identifier owes to the seed of its call. Where the drawn digits stand, and where the letter
tokens, follows from the text and the time alone; what a letter token says depends on the seed only
if digits were drawn inside it.
-/

namespace Placeholders
namespace UniqueId

/-- A place in a text some of whose digits are drawn. -/
inductive Slot where
  | fixed (c : Char)
  | drawn
deriving Repr, DecidableEq

namespace Slot

def Holds : Slot → Char → Prop
  | fixed d, c => c = d
  | drawn, c => isDigit c

/-- What a place holds when every drawn digit is zero. -/
def zero : Slot → Char
  | fixed c => c
  | drawn => '0'

end Slot

theorem holds_zeros (slots : List Slot) :
    List.Forall₂ Slot.Holds slots (slots.map Slot.zero) := by
  induction slots with
  | nil => exact .nil
  | cons slot slots ih =>
      cases slot with
      | fixed c => exact .cons rfl ih
      | drawn => exact .cons rfl ih

theorem holds_fixed (t : Text) : List.Forall₂ Slot.Holds (t.map .fixed) t := by
  induction t with
  | nil => exact .nil
  | cons c t ih => exact .cons rfl ih

theorem holds_drawn {t : Text} (h : ∀ c ∈ t, isDigit c) :
    List.Forall₂ Slot.Holds (List.replicate t.length .drawn) t := by
  induction t with
  | nil => exact .nil
  | cons c t ih =>
      obtain ⟨hc, ht⟩ := List.forall_mem_cons.mp h
      exact .cons hc (ih ht)

/-- Two texts with the same places differ in drawn digits only. -/
theorem eq_or_drawn {slots : List Slot} {t u : Text} (ht : List.Forall₂ Slot.Holds slots t)
    (hu : List.Forall₂ Slot.Holds slots u) (k : Nat) :
    t[k]? = u[k]? ∨ slots[k]? = some .drawn := by
  induction ht generalizing u k with
  | nil =>
      cases hu
      exact .inl rfl
  | @cons slot c slots t hc _ ih =>
      obtain ⟨d, u, hd, hrest, rfl⟩ := List.forall₂_cons_left_iff.mp hu
      cases k with
      | succ k => simpa using ih hrest k
      | zero =>
          cases slot with
          | fixed e => exact .inl (by simp [hc.trans hd.symm])
          | drawn => exact .inr rfl

theorem eq_of_no_drawn {slots : List Slot} {t u : Text} (ht : List.Forall₂ Slot.Holds slots t)
    (hu : List.Forall₂ Slot.Holds slots u) (h : .drawn ∉ slots) : t = u :=
  List.ext_getElem? fun k =>
    (eq_or_drawn ht hu k).resolve_right fun hk => h (List.mem_of_getElem? hk)

def digitSlots : Piece Nat → List Slot
  | .char c => [.fixed c]
  | .token width =>
    if width ≤ widestToken then List.replicate width .drawn
    else (writeDigitToken width).map .fixed

/-- The places of a text when its digit tokens are filled. -/
def drawnSlots (t : Text) : List Slot :=
  (t.pieces digitToken? writeDigitToken).flatMap digitSlots

theorem Becomes.holds {s : RandomStream} {n : Nat} {piece : Piece Nat} {t : Text}
    (h : Becomes s n piece t) : List.Forall₂ Slot.Holds (digitSlots piece) t := by
  cases piece with
  | char c =>
      obtain rfl : t = [c] := h
      exact holds_fixed [c]
  | token width =>
      simp only [Becomes, digitSlots] at h ⊢
      split at h
      · next hwidth =>
        obtain ⟨rfl, hdigits⟩ := h
        rw [if_pos hwidth]
        exact holds_drawn fun c hc => Numeral.isDigit_of_digits? hdigits hc
      · next hwidth =>
        rw [if_neg hwidth, h]
        exact holds_fixed _

theorem holds_fillDigits (s : RandomStream) {pieces : List (Piece Nat)}
    (hpos : ∀ width, .token width ∈ pieces → 0 < width) :
    List.Forall₂ Slot.Holds (pieces.flatMap digitSlots) (fillDigits s pieces).1 := by
  induction pieces generalizing s with
  | nil => exact .nil
  | cons piece pieces ih =>
      obtain ⟨t, hbecomes, hfill⟩ := fillDigits_cons s pieces
        fun width hwidth => hpos width (hwidth ▸ List.mem_cons_self)
      rw [hfill, List.flatMap_cons]
      exact List.rel_append hbecomes.holds
        (ih _ fun width hwidth => hpos width (List.mem_cons_of_mem _ hwidth))

theorem holds_replaceDigits (s : RandomStream) (t : Text) :
    List.Forall₂ Slot.Holds (drawnSlots t) (replaceDigits s t).1 :=
  holds_fillDigits s fun _ => pos_of_mem_pieces

/-- Characters that are equal unless both are digits. -/
def Alike (c d : Char) : Prop := c = d ∨ isDigit c ∧ isDigit d

theorem alike_of_holds {slots : List Slot} {t u : Text} (ht : List.Forall₂ Slot.Holds slots t)
    (hu : List.Forall₂ Slot.Holds slots u) : List.Forall₂ Alike t u := by
  induction ht generalizing u with
  | nil =>
      cases hu
      exact .nil
  | @cons slot c slots t hc _ ih =>
      obtain ⟨d, u, hd, hrest, rfl⟩ := List.forall₂_cons_left_iff.mp hu
      refine .cons ?_ (ih hrest)
      cases slot with
      | fixed e => exact .inl (hc.trans hd.symm)
      | drawn => exact .inr ⟨hc, hd⟩

theorem alike_append {t u v : Text} (h : List.Forall₂ Alike t (u ++ v)) :
    ∃ u' v', t = u' ++ v' ∧ List.Forall₂ Alike u' u ∧ List.Forall₂ Alike v' v :=
  ⟨_, _, (List.take_append_drop u.length t).symm, List.forall₂_take_append t u v h,
    List.forall₂_drop_append t u v h⟩

theorem eq_of_alike {t u : Text} (h : List.Forall₂ Alike t u) (hu : ∀ c ∈ u, isDigit c = false) :
    t = u := by
  induction h with
  | nil => rfl
  | @cons c d t u hcd _ ih =>
      obtain ⟨hd, hu⟩ := List.forall_mem_cons.mp hu
      rw [ih hu]
      cases hcd with
      | inl heq => rw [heq]
      | inr hdigits => rw [hdigits.2] at hd; contradiction

theorem decimalDigits_of_alike {t u : Text} (h : List.Forall₂ Alike t u)
    (hu : ∀ c ∈ u, isDecimalDigit c) : ∀ c ∈ t, isDecimalDigit c := by
  induction h with
  | nil => exact hu
  | @cons c d t u hcd _ ih =>
      obtain ⟨hd, hu⟩ := List.forall_mem_cons.mp hu
      refine List.forall_mem_cons.mpr ⟨?_, ih hu⟩
      cases hcd with
      | inl heq => rw [heq]; exact hd
      | inr hdigits => exact isDecimalDigit_of_isDigit hdigits.1

theorem ne_nil_of_alike {t u : Text} (h : List.Forall₂ Alike t u) (hu : u ≠ []) : t ≠ [] := by
  rintro rfl
  cases h
  exact hu rfl

/-- Other digits in a token leave a token. -/
theorem LetterToken.Grammatical.alike {token : LetterToken} (h : token.Grammatical) {t : Text}
    (ht : List.Forall₂ Alike t token.written) :
    ∃ other : LetterToken, other.Grammatical ∧ t = other.written := by
  obtain ⟨upperCase, count, gap, seed⟩ := token
  have hwritten (count seed : Text) : LetterToken.written ⟨upperCase, count, gap, seed⟩ =
      ['%', if upperCase then 'A' else 'a', '('] ++
        (count ++ (';' :: gap ++ (seed ++ [')', '%']))) := by
    simp [LetterToken.written]
  have hopens : ∀ c ∈ ['%', if upperCase then 'A' else 'a', '('], isDigit c = false := by
    refine List.forall_mem_cons.mpr ⟨rfl, List.forall_mem_cons.mpr ⟨?_, ?_⟩⟩
    · cases upperCase <;> rfl
    · exact List.forall_mem_singleton.mpr rfl
  have hgap : ∀ c ∈ ';' :: gap, isDigit c = false := by
    refine List.forall_mem_cons.mpr ⟨by decide, fun c hc => Bool.eq_false_iff.mpr fun hdigit => ?_⟩
    have hspace := h.gap_space c hc
    rw [not_isSpace_of_isDecimalDigit (isDecimalDigit_of_isDigit hdigit)] at hspace
    contradiction
  rw [hwritten] at ht
  obtain ⟨opening, t, rfl, hopening, ht⟩ := alike_append ht
  obtain ⟨count', t, rfl, hcount, ht⟩ := alike_append ht
  obtain ⟨gap', t, rfl, hgap', ht⟩ := alike_append ht
  obtain ⟨seed', closing, rfl, hseed, hclosing⟩ := alike_append ht
  refine ⟨⟨upperCase, count', gap, seed'⟩, ⟨ne_nil_of_alike hcount h.count_ne_nil,
    decimalDigits_of_alike hcount h.count_digits, h.gap_space, ne_nil_of_alike hseed h.seed_ne_nil,
    decimalDigits_of_alike hseed h.seed_digits⟩, ?_⟩
  have hcloses : ∀ c ∈ [')', '%'], isDigit c = false :=
    List.forall_mem_cons.mpr ⟨rfl, List.forall_mem_singleton.mpr rfl⟩
  rw [hwritten, eq_of_alike hopening hopens, eq_of_alike hgap' hgap, eq_of_alike hclosing hcloses]

/-- Drawn digits neither make a letter token nor break one. -/
theorem read?_of_holds {slots : List Slot} {t u : Text} {token : LetterToken}
    (ht : List.Forall₂ Slot.Holds slots t) (hu : List.Forall₂ Slot.Holds slots u)
    (h : LetterToken.read? t = some token) :
    ∃ other : LetterToken, LetterToken.read? u = some other ∧
      other.written.length = token.written.length := by
  obtain ⟨hgrammatical, rest, rfl⟩ := LetterToken.read?_eq_some_iff.mp h
  obtain ⟨u, rest', rfl, hwritten, -⟩ := alike_append (alike_of_holds hu ht)
  have hlength := hwritten.length_eq
  obtain ⟨other, hother, rfl⟩ := hgrammatical.alike hwritten
  exact ⟨other, LetterToken.read?_eq_some_iff.mpr ⟨hother, List.prefix_append _ _⟩, hlength⟩

/-- A part of an identifier, as far as the seed does not decide it. -/
inductive Part where
  | place (slot : Slot)
  /-- The letters of a token in which no digit is drawn. -/
  | letters (t : Text)
  /-- A letter token in which digits are drawn. -/
  | nested (slots : List Slot)
deriving Repr, DecidableEq

namespace Part

def Holds : Part → Text → Prop
  | place slot, t => ∃ c, slot.Holds c ∧ t = [c]
  | letters u, t => t = u
  | nested slots, t => ∃ token : LetterToken, token.Grammatical ∧
    List.Forall₂ Slot.Holds slots token.written ∧ t = token.letters

def isNested : Part → Bool
  | nested _ => true
  | _ => false

/-- The places of a part that is not nested. -/
def slots : Part → List Slot
  | place slot => [slot]
  | letters t => t.map .fixed
  | nested _ => []

end Part

def letterPart (token : LetterToken) (slots : List Slot) : Part :=
  if .drawn ∈ slots then .nested slots else .letters token.letters

/-- The parts after the first `covered` places, which belong to the last letter token. -/
def partsAfter : Nat → List Slot → List Part
  | _, [] => []
  | covered + 1, _ :: slots => partsAfter covered slots
  | 0, slot :: slots =>
    match LetterToken.read? ((slot :: slots).map Slot.zero) with
    | some token =>
      letterPart token ((slot :: slots).take token.written.length) ::
        partsAfter (token.written.length - 1) slots
    | none => .place slot :: partsAfter 0 slots

/-- The parts of the identifiers that are made of a text at a time. -/
def outline (now : Instant) (t : Text) : List Part := partsAfter 0 (drawnSlots (replaceTimes now t))

theorem take_of_read? {t : Text} {token : LetterToken} (h : LetterToken.read? t = some token) :
    t.take token.written.length = token.written := by
  obtain ⟨-, rest, rfl⟩ := LetterToken.read?_eq_some_iff.mp h
  exact List.take_left

theorem holds_letterPart {slots : List Slot} {t u : Text} {token other : LetterToken}
    (ht : List.Forall₂ Slot.Holds slots t) (hu : List.Forall₂ Slot.Holds slots u)
    (htoken : LetterToken.read? t = some token) (hother : LetterToken.read? u = some other)
    (hlength : other.written.length = token.written.length) :
    (letterPart token (slots.take token.written.length)).Holds other.letters := by
  have htaken := List.forall₂_take token.written.length ht
  have hutaken := List.forall₂_take token.written.length hu
  rw [take_of_read? htoken] at htaken
  rw [← hlength, take_of_read? hother, hlength] at hutaken
  obtain ⟨hgrammatical, -⟩ := LetterToken.read?_eq_some_iff.mp htoken
  obtain ⟨hgrammatical', hprefix⟩ := LetterToken.read?_eq_some_iff.mp hother
  unfold letterPart
  split
  · exact ⟨other, hgrammatical', hutaken, rfl⟩
  · next hdrawn =>
    -- Without drawn digits it is the same token, so its letters are the same.
    have hwritten := eq_of_no_drawn htaken hutaken hdrawn
    have hsame : LetterToken.read? u = some token :=
      LetterToken.read?_eq_some_iff.mpr ⟨hgrammatical, hwritten ▸ hprefix⟩
    rw [hsame] at hother
    rw [Option.some.inj hother]
    rfl

theorem holds_partsAfter {slots : List Slot} {t : Text} (h : List.Forall₂ Slot.Holds slots t)
    (covered : Nat) :
    List.Forall₂ Part.Holds (partsAfter covered slots)
      ((Text.piecesAfter LetterToken.read? LetterToken.written covered t).map
        (Piece.text LetterToken.letters)) := by
  induction h generalizing covered with
  | nil => cases covered <;> exact .nil
  | @cons slot c slots t hc h ih =>
      have hall := List.Forall₂.cons hc h
      -- The outline reads the text of zeros. It has the same places, so its tokens stand there too.
      have hzeros := holds_zeros (slot :: slots)
      cases covered with
      | succ covered => exact ih covered
      | zero =>
          simp only [partsAfter, Text.piecesAfter]
          split
          · next token htoken =>
            obtain ⟨other, hother, hlength⟩ := read?_of_holds hzeros hall htoken
            rw [hother]
            simp only [List.map_cons, hlength]
            exact .cons (holds_letterPart hzeros hall htoken hother hlength) (ih _)
          · next hnone =>
            split
            · next other hother =>
              obtain ⟨token, htoken, -⟩ := read?_of_holds hall hzeros hother
              rw [htoken] at hnone
              contradiction
            · exact .cons ⟨c, hc, rfl⟩ (ih 0)

/-- What identifiers with the same outline have in common. -/
def Follows (parts : List Part) (t : Text) : Prop :=
  ∃ texts : List Text, t = texts.flatten ∧ List.Forall₂ Part.Holds parts texts

theorem follows_fill (now : Instant) (s : RandomStream) (t : Text) :
    Follows (outline now t) (fill now s t) :=
  ⟨_, List.flatMap_def, holds_partsAfter (holds_replaceDigits s (replaceTimes now t)) 0⟩

theorem Follows.holds_slots {parts : List Part} {t : Text} (h : Follows parts t)
    (hnested : ∀ part ∈ parts, ¬ part.isNested) :
    List.Forall₂ Slot.Holds (parts.flatMap Part.slots) t := by
  obtain ⟨texts, rfl, hparts⟩ := h
  induction hparts with
  | nil => exact .nil
  | @cons part t parts texts hpart _ ih =>
      obtain ⟨hnot, hrest⟩ := List.forall_mem_cons.mp hnested
      refine List.rel_append ?_ (ih hrest)
      cases part with
      | place slot =>
          obtain ⟨c, hc, rfl⟩ := hpart
          exact .cons hc .nil
      | letters u =>
          obtain rfl : t = u := hpart
          exact holds_fixed t
      | nested slots => exact absurd rfl hnot

theorem handler_of_request {call : Call} {index : Int64} {t : Text}
    (h : request call = .ok (index, t)) (now : Instant) :
    (handler (m := ReaderM Instant) call).run now =
      .ok (fill now (.atIndex call.seed index) t) := by
  simp only [handler, h]
  rfl

/-- Two calls with the same text make identifiers of the same outline at the same time, whatever
their seeds and indexes. The letters of a token depend on them only if the token itself holds drawn
digits; if there is no such token, the identifiers have the same length and differ only where digits
were drawn. -/
theorem seed_separation {call₁ call₂ : Call} {index₁ index₂ : Int64} {t : Text}
    (h₁ : request call₁ = .ok (index₁, t)) (h₂ : request call₂ = .ok (index₂, t)) (now : Instant) :
    ∃ output₁ output₂ : Text,
      (handler (m := ReaderM Instant) call₁).run now = .ok output₁ ∧
      (handler (m := ReaderM Instant) call₂).run now = .ok output₂ ∧
      Follows (outline now t) output₁ ∧ Follows (outline now t) output₂ ∧
      ((∀ part ∈ outline now t, ¬ part.isNested) → output₁.length = output₂.length ∧
        ∀ k : Nat, output₁[k]? = output₂[k]? ∨
          ((outline now t).flatMap Part.slots)[k]? = some .drawn) := by
  have hfollows₁ := follows_fill now (.atIndex call₁.seed index₁) t
  have hfollows₂ := follows_fill now (.atIndex call₂.seed index₂) t
  refine ⟨_, _, handler_of_request h₁ now, handler_of_request h₂ now, hfollows₁, hfollows₂, ?_⟩
  intro hnested
  have hholds₁ := hfollows₁.holds_slots hnested
  have hholds₂ := hfollows₂.holds_slots hnested
  exact ⟨hholds₁.length_eq.symm.trans hholds₂.length_eq, eq_or_drawn hholds₁ hholds₂⟩

/-- Two digits are drawn between a time and the letters of a token. -/
theorem seed_separation_of_two_seeds :
    ∃ output₁ output₂ : Text,
      (handler (m := ReaderM Instant)
        ⟨⟨[], [], [], ["%hhmm%-%nn%-%a(3; 5)%".toList], ⟨false, 1⟩⟩, [], 1⟩).run
          ⟨⟨2026, 2, 24⟩, 13, 7, 9, 0⟩ = .ok output₁ ∧
      (handler (m := ReaderM Instant)
        ⟨⟨[], [], [-3], ["%hhmm%-%nn%-%a(3; 5)%".toList], ⟨false, 2⟩⟩, [], 2⟩).run
          ⟨⟨2026, 2, 24⟩, 13, 7, 9, 0⟩ = .ok output₂ ∧
      output₁.length = output₂.length ∧
      ∀ k : Nat, output₁[k]? = output₂[k]? ∨ k = 5 ∨ k = 6 := by
  have h₁ : request ⟨⟨[], [], [], ["%hhmm%-%nn%-%a(3; 5)%".toList], ⟨false, 1⟩⟩, [], 1⟩ =
      .ok (1, "%hhmm%-%nn%-%a(3; 5)%".toList) := rfl
  have h₂ : request ⟨⟨[], [], [-3], ["%hhmm%-%nn%-%a(3; 5)%".toList], ⟨false, 2⟩⟩, [], 2⟩ =
      .ok (-3, "%hhmm%-%nn%-%a(3; 5)%".toList) := rfl
  obtain ⟨output₁, output₂, hrun₁, hrun₂, -, -, hagree⟩ :=
    seed_separation h₁ h₂ ⟨⟨2026, 2, 24⟩, 13, 7, 9, 0⟩
  have houtline : outline ⟨⟨2026, 2, 24⟩, 13, 7, 9, 0⟩ "%hhmm%-%nn%-%a(3; 5)%".toList =
      "1307-".toList.map (.place ∘ .fixed) ++ [.place .drawn, .place .drawn, .place (.fixed '-'),
        .letters "tzp".toList] := by decide +kernel
  have hplaces : ∀ k < 11, ((outline ⟨⟨2026, 2, 24⟩, 13, 7, 9, 0⟩
      "%hhmm%-%nn%-%a(3; 5)%".toList).flatMap Part.slots)[k]? = some .drawn → k = 5 ∨ k = 6 := by
    rw [houtline]
    decide
  obtain ⟨hlength, hagree⟩ := hagree (by rw [houtline]; decide)
  refine ⟨output₁, output₂, hrun₁, hrun₂, hlength, fun k => (hagree k).imp_right fun hdrawn => ?_⟩
  have hk := (List.getElem?_eq_some_iff.mp hdrawn).1
  rw [houtline] at hk
  exact hplaces k hk hdrawn

/-- A digit drawn inside a letter token decides how many letters there are. -/
theorem length_depends_on_seed :
    ¬ ∀ (call₁ call₂ : Call) (index₁ index₂ : Int64) (t : Text) (now : Instant)
      (output₁ output₂ : Text), request call₁ = .ok (index₁, t) → request call₂ = .ok (index₂, t) →
      (handler (m := ReaderM Instant) call₁).run now = .ok output₁ →
      (handler (m := ReaderM Instant) call₂).run now = .ok output₂ →
      output₁.length = output₂.length := by
  intro h
  have hlength := h ⟨⟨[], [], [], ["%a(%n%; 5)%".toList], ⟨false, 0⟩⟩, [], 0⟩
    ⟨⟨[], [], [], ["%a(%n%; 5)%".toList], ⟨false, 1⟩⟩, [], 1⟩ 1 1 _ ⟨⟨2026, 2, 24⟩, 13, 7, 9, 0⟩
    "tzpto".toList "tz".toList rfl rfl
    ((handler_of_request rfl _).trans (congrArg Except.ok (by decide +kernel)))
    ((handler_of_request rfl _).trans (congrArg Except.ok (by decide +kernel)))
  contradiction

end UniqueId
end Placeholders
