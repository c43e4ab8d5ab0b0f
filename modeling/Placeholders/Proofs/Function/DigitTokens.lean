import Mathlib.Data.List.TakeWhile
import Placeholders.Function.UniqueId
import Placeholders.Proofs.Entropy.Stream
import Placeholders.Proofs.Text.Leftmost
import Placeholders.Proofs.Text.Numeral

/-!
The digits of an identifier: the tokens that are filled take the words of one stream in their order,
and a token that is too wide takes none.
-/

namespace Placeholders
namespace UniqueId

/-- A text begins with a token of this width. Percent signs on both sides make its run maximal. -/
def BeginsDigits (width : Nat) (t : Text) : Prop := 0 < width ∧ writeDigitToken width <+: t

/-- A token that is narrow enough to be filled. -/
def isFilled : Piece Nat → Bool
  | .char _ => false
  | .token width => width ≤ widestToken

/-- What becomes of a piece, by the number of words drawn before it. -/
def Becomes (s : RandomStream) (drawn : Nat) : Piece Nat → Text → Prop
  | .char c, t => t = [c]
  | .token width, t =>
    if width ≤ widestToken then
      t.length = width ∧ Numeral.digits? t = some ((s.draw drawn).toNat % 10 ^ width)
    else t = writeDigitToken width

theorem writeDigitToken_append (width : Nat) (rest : Text) :
    writeDigitToken width ++ rest = '%' :: (List.replicate width 'n' ++ '%' :: rest) := by
  simp [writeDigitToken]

theorem digitToken?_eq_some_iff {t : Text} {width : Nat} :
    digitToken? t = some width ↔ BeginsDigits width t := by
  constructor
  · intro h
    unfold digitToken? at h
    split at h
    · next u =>
      split at h
      · next more rest htake hdrop =>
        obtain rfl := Option.some.inj h
        have hrun : 'n' :: more = List.replicate (more.length + 1) 'n' := by
          refine List.eq_replicate_iff.mpr ⟨rfl, fun c hc => ?_⟩
          rw [← htake] at hc
          simpa using List.mem_takeWhile_imp hc
        have hu : u = u.takeWhile (· == 'n') ++ u.dropWhile (· == 'n') :=
          List.takeWhile_append_dropWhile.symm
        rw [htake, hdrop, hrun] at hu
        exact ⟨Nat.succ_pos _, rest, by rw [writeDigitToken_append, ← hu]⟩
      · contradiction
    · contradiction
  · intro h
    obtain ⟨hpos, rest, rfl⟩ := h
    obtain ⟨k, rfl⟩ := Nat.exists_eq_add_of_lt hpos
    have hrun : ∀ c ∈ List.replicate (k + 1) 'n', (c == 'n') = true :=
      fun c hc => beq_iff_eq.mpr (List.eq_of_mem_replicate hc)
    rw [Nat.zero_add, writeDigitToken_append, digitToken?,
      Text.takeWhile_run hrun (by decide), Text.dropWhile_run hrun (by decide)]
    simp [List.replicate_succ]

theorem BeginsDigits.sound {width : Nat} {t : Text} (h : BeginsDigits width t) :
    writeDigitToken width ≠ [] ∧ writeDigitToken width <+: t :=
  ⟨List.cons_ne_nil _ _, h.2⟩

theorem leftmost_digits_iff {t : Text} {cut : List (Piece Nat)} :
    Text.Leftmost BeginsDigits writeDigitToken t cut ↔
      cut = t.pieces digitToken? writeDigitToken :=
  Text.leftmost_iff digitToken?_eq_some_iff BeginsDigits.sound

theorem pos_of_mem_pieces {t : Text} {width : Nat}
    (h : .token width ∈ t.pieces digitToken? writeDigitToken) : 0 < width := by
  obtain ⟨u, hbegins⟩ := (leftmost_digits_iff.mpr rfl).begins_of_mem h
  exact hbegins.1

/-- The bound of a draw is a word. -/
theorem toNat_bound {width : Nat} (h : width ≤ widestToken) :
    (UInt64.ofNat (Nat.pow 10 width)).toNat = 10 ^ width := by
  have hle : 10 ^ width ≤ 10 ^ widestToken := Nat.pow_le_pow_right (by decide) h
  exact UInt64.toNat_ofNat_of_lt' (Nat.lt_of_le_of_lt hle (by decide))

theorem becomes_drawDigits {s : RandomStream} {width : Nat} (hpos : 0 < width) :
    Becomes s 0 (.token width) (drawDigits s width).1 ∧
      (drawDigits s width).2 = s.after ([Piece.token width].countP isFilled) := by
  by_cases h : width ≤ widestToken
  · have hword : (s.nextBelow (.ofNat (Nat.pow 10 width))).1.toNat =
        (s.draw 0).toNat % 10 ^ width := by
      rw [RandomStream.nextBelow, UInt64.toNat_mod, toNat_bound h]
      rfl
    have hlt : (s.draw 0).toNat % 10 ^ width < 10 ^ width :=
      Nat.mod_lt _ (Nat.pow_pos (by decide))
    simp only [drawDigits, Becomes, if_pos h, hword, List.countP_singleton, isFilled,
      decide_eq_true h]
    exact ⟨⟨Numeral.length_padded hpos hlt, Numeral.digits?_padded _ _⟩, rfl⟩
  · simp only [drawDigits, Becomes, if_neg h, List.countP_singleton, isFilled, decide_eq_false h]
    exact ⟨trivial, rfl⟩

theorem Becomes.after {s : RandomStream} {m n : Nat} {piece : Piece Nat} {t : Text}
    (h : Becomes (s.after m) n piece t) : Becomes s (m + n) piece t := by
  cases piece with
  | char c => exact h
  | token width =>
      simp only [Becomes, RandomStream.draw_after] at h
      exact h

theorem fillDigits_cons (s : RandomStream) {piece : Piece Nat} (pieces : List (Piece Nat))
    (hpos : ∀ width, piece = .token width → 0 < width) :
    ∃ t, Becomes s 0 piece t ∧ fillDigits s (piece :: pieces) =
      (t ++ (fillDigits (s.after ([piece].countP isFilled)) pieces).1,
        (fillDigits (s.after ([piece].countP isFilled)) pieces).2) := by
  cases piece with
  | char c => exact ⟨[c], rfl, rfl⟩
  | token width =>
      obtain ⟨hbecomes, hafter⟩ := becomes_drawDigits (s := s) (hpos width rfl)
      rw [← hafter]
      exact ⟨_, hbecomes, rfl⟩

theorem fillDigits_spec (s : RandomStream) {pieces : List (Piece Nat)}
    (hpos : ∀ width, .token width ∈ pieces → 0 < width) :
    ∃ outputs : List Text,
      fillDigits s pieces = (outputs.flatten, s.after (pieces.countP isFilled)) ∧
      outputs.length = pieces.length ∧
      ∀ k piece, pieces[k]? = some piece → ∃ t, outputs[k]? = some t ∧
        Becomes s ((pieces.take k).countP isFilled) piece t := by
  induction pieces generalizing s with
  | nil => exact ⟨[], rfl, rfl, fun k piece h => by simp at h⟩
  | cons piece pieces ih =>
      obtain ⟨t, hbecomes, hfill⟩ := fillDigits_cons s pieces
        fun width hwidth => hpos width (hwidth ▸ List.mem_cons_self)
      obtain ⟨outputs, hrest, hlength, houtputs⟩ := ih (s.after ([piece].countP isFilled))
        fun width hwidth => hpos width (List.mem_cons_of_mem _ hwidth)
      have hcount (others : List (Piece Nat)) : (piece :: others).countP isFilled =
          [piece].countP isFilled + others.countP isFilled := by
        rw [← List.countP_append, List.singleton_append]
      refine ⟨t :: outputs, ?_, congrArg Nat.succ hlength, fun k other hother => ?_⟩
      · rw [hfill, hrest, RandomStream.after_after, ← hcount]
        rfl
      · cases k with
        | zero =>
            obtain rfl : piece = other := by simpa using hother
            exact ⟨t, rfl, hbecomes⟩
        | succ k =>
            obtain ⟨u, hu, hbecomes⟩ := houtputs k other hother
            rw [List.take_succ_cons, hcount]
            exact ⟨u, hu, hbecomes.after⟩

/-- Digit tokens are found from left to right and do not overlap. Those of at most 19 digits are
filled in their order: a token that `j` filled ones stand before has as many digits as it is wide,
and they say the word of draw `j` modulo a power of ten that is a word itself. Wider tokens and all
other characters stay, and the stream has moved once for every token that was filled. -/
theorem replaceDigits_exact (s : RandomStream) (t : Text) :
    ∃ (pieces : List (Piece Nat)) (outputs : List Text),
      (∀ cut, Text.Leftmost BeginsDigits writeDigitToken t cut ↔ cut = pieces) ∧
      replaceDigits s t = (outputs.flatten, s.after (pieces.countP isFilled)) ∧
      outputs.length = pieces.length ∧
      (∀ k piece, pieces[k]? = some piece → ∃ output, outputs[k]? = some output ∧
        Becomes s ((pieces.take k).countP isFilled) piece output) ∧
      ∀ width ≤ widestToken, (UInt64.ofNat (Nat.pow 10 width)).toNat = 10 ^ width := by
  obtain ⟨outputs, hfill, hlength, houtputs⟩ := fillDigits_spec s fun _ => pos_of_mem_pieces
  exact ⟨_, outputs, fun cut => leftmost_digits_iff, hfill, hlength, houtputs,
    fun width hwidth => toNat_bound hwidth⟩

example : (replaceDigits (.ofSeed 1) "%nn%-%nnn%".toList).1 = "55-538".toList := by decide +kernel

end UniqueId
end Placeholders
