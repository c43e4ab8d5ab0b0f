import Placeholders.Function.UniqueId
import Placeholders.Proofs.Text.Leftmost
import Placeholders.Proofs.Text.Numeral

/-!
The tokens of dates and times in an identifier. What is written for one holds a digit and no percent
sign, so it makes no token with the text around it and breaks none. Where no two tokens overlap,
they can be replaced in any order or all at once.
-/

namespace Placeholders
namespace UniqueId

abbrev TimeToken := Text × List TimeField

/-- A text begins with this token. -/
def BeginsTime (token : TimeToken) (t : Text) : Prop := token ∈ timeTokens ∧ token.1 <+: t

/-- A token begins at the place `i` of a text and covers the place `k`. -/
def Covers (a : TimeToken) (t : Text) (i k : Nat) : Prop :=
  BeginsTime a (t.drop i) ∧ i ≤ k ∧ k < i + a.1.length

/-- No percent sign of a text belongs to two tokens in it. -/
def Apart (t : Text) : Prop :=
  ∀ i j k a b, t[k]? = some '%' → Covers a t i k → Covers b t j k → i = j

/-- Pieces that spell a text and among which is every time token that stands anywhere in it. -/
def CutsOut (t : Text) (pieces : List (Piece TimeToken)) : Prop :=
  pieces.flatMap (Piece.text Prod.fst) = t ∧ (∀ a, .token a ∈ pieces → a ∈ timeTokens) ∧
    ∀ before a after, a ∈ timeTokens → t = before ++ a.1 ++ after →
      ∃ front back, pieces = front ++ .token a :: back ∧
        front.flatMap (Piece.text Prod.fst) = before ∧ back.flatMap (Piece.text Prod.fst) = after

def timeToken? (t : Text) : Option TimeToken := timeTokens.find? fun a => decide (a.1 <+: t)

/-- What stands between the percent signs of a token. -/
def inner (a : TimeToken) : Text := a.1.tail.dropLast

section
variable {a b : TimeToken}

theorem timeToken_eq (h : a ∈ timeTokens) : a.1 = '%' :: (inner a ++ ['%']) := by
  have hall : ∀ a ∈ timeTokens, a.1 = '%' :: (inner a ++ ['%']) := by decide
  exact hall a h

theorem inner_chars (h : a ∈ timeTokens) : ∀ c ∈ inner a, c ≠ '%' ∧ isDigit c = false := by
  have hall : ∀ a ∈ timeTokens, (inner a).all fun c => c != '%' && !isDigit c := by decide
  intro c hc
  have hchar := List.all_eq_true.mp (hall a h) c hc
  rw [Bool.and_eq_true, bne_iff_ne, Bool.not_eq_true'] at hchar
  exact hchar

/-- No token begins another. -/
theorem eq_of_isPrefix (ha : a ∈ timeTokens) (hb : b ∈ timeTokens) {t : Text} (hat : a.1 <+: t)
    (hbt : b.1 <+: t) : a = b := by
  have hall : ∀ a ∈ timeTokens, ∀ b ∈ timeTokens, a.1 <+: b.1 → a = b := by decide
  cases List.prefix_or_prefix_of_prefix hat hbt with
  | inl h => exact hall a ha b hb h
  | inr h => exact (hall b hb a ha h).symm

theorem timeToken?_eq_some_iff {t : Text} : timeToken? t = some a ↔ BeginsTime a t := by
  constructor
  · intro h
    have hbegin := List.find?_some h
    exact ⟨List.mem_of_find?_eq_some h, of_decide_eq_true hbegin⟩
  · intro h
    obtain ⟨ha, hbegin⟩ := h
    cases hfind : timeToken? t with
    | none => exact absurd (decide_eq_true hbegin) (List.find?_eq_none.mp hfind a ha)
    | some b =>
        have hb := List.find?_some hfind
        rw [eq_of_isPrefix ha (List.mem_of_find?_eq_some hfind) hbegin (of_decide_eq_true hb)]

theorem BeginsTime.sound {t : Text} (h : BeginsTime a t) : a.1 ≠ [] ∧ a.1 <+: t :=
  ⟨timeToken_eq h.1 ▸ List.cons_ne_nil _ _, h.2⟩

theorem Covers.lt_length {t : Text} {i k : Nat} (h : Covers a t i k) : i < t.length := by
  obtain ⟨hne, hbegin⟩ := h.1.sound
  refine Nat.lt_of_not_ge fun hi => hne ?_
  rw [List.drop_eq_nil_of_le hi, List.prefix_nil] at hbegin
  exact hbegin

instance (t : Text) : Decidable (BeginsTime a t) := inferInstanceAs (Decidable (_ ∧ _))

instance (t : Text) (i k : Nat) : Decidable (Covers a t i k) := inferInstanceAs (Decidable (_ ∧ _))

/-- Every token that covers the place `k` begins at the place `i`. -/
def OnlyCovered (t : Text) (i k : Nat) : Prop :=
  ∀ j < t.length, ∀ b ∈ timeTokens, Covers b t j k → i = j

instance (t : Text) (i k : Nat) : Decidable (OnlyCovered t i k) :=
  inferInstanceAs (Decidable (∀ j < t.length, ∀ b ∈ timeTokens, Covers b t j k → i = j))

instance (t : Text) : Decidable (Apart t) :=
  decidable_of_iff (∀ k < t.length, t[k]? = some '%' →
      ∀ i < t.length, ∀ a ∈ timeTokens, Covers a t i k → OnlyCovered t i k)
    ⟨fun h i j k a b hk ha hb => h k (List.getElem?_eq_some_iff.mp hk).1 hk i ha.lt_length a ha.1.1
        ha j hb.lt_length b hb.1.1 hb,
      fun h k _ hk i _ a _ ha j _ b _ hb => h i j k a b hk ha hb⟩

theorem leftmost_times_iff {t : Text} {cut : List (Piece TimeToken)} :
    Text.Leftmost BeginsTime Prod.fst t cut ↔ cut = t.pieces timeToken? Prod.fst :=
  Text.leftmost_iff timeToken?_eq_some_iff BeginsTime.sound

end

theorem isDigit_of_mem_padded {width n : Nat} {c : Char} (h : c ∈ Numeral.padded width n) :
    isDigit c :=
  Numeral.isDigit_of_digits? (Numeral.digits?_padded width n) h

theorem exists_digit_padded (width n : Nat) : ∃ c ∈ Numeral.padded width n, isDigit c := by
  obtain ⟨⟨hne, hdigits⟩, -⟩ := Numeral.digits?_eq_some_iff.mp (Numeral.digits?_padded width n)
  obtain ⟨c, hc⟩ := List.exists_mem_of_ne_nil _ hne
  exact ⟨c, hc, hdigits c hc⟩

theorem isDigit_or_sign_of_mem_writeYear {year : Int} {c : Char} (h : c ∈ Date.writeYear year) :
    isDigit c ∨ c = '-' ∨ c = '+' := by
  unfold Date.writeYear at h
  split at h
  · exact .inl (isDigit_of_mem_padded h)
  · cases List.mem_cons.mp h with
    | inl hsign =>
        split at hsign
        · exact .inr (.inl hsign)
        · exact .inr (.inr hsign)
    | inr hdigit => exact .inl (isDigit_of_mem_padded hdigit)

section
variable (now : Instant) {a : TimeToken}

theorem eq_mark_of_percent_mem {field : TimeField} (h : '%' ∈ now.writeField field) :
    field = .mark '%' := by
  have hdigit : ¬ isDigit '%' := by decide
  cases field with
  | year =>
      have hyear := isDigit_or_sign_of_mem_writeYear h
      exact absurd hyear (by decide)
  | shortYear | month | day | hour | minute | second =>
      exact absurd (isDigit_of_mem_padded h) hdigit
  | mark c => rw [List.mem_singleton.mp h]

theorem percent_notMem_write (h : a ∈ timeTokens) : '%' ∉ now.write a.2 := by
  have hall : ∀ a ∈ timeTokens, .mark '%' ∉ a.2 := by decide
  intro hmem
  obtain ⟨field, hfield, hpercent⟩ := List.mem_flatMap.mp hmem
  rw [eq_mark_of_percent_mem now hpercent] at hfield
  exact hall a h hfield

theorem exists_digit_write (h : a ∈ timeTokens) : ∃ c ∈ now.write a.2, isDigit c := by
  have hall : ∀ a ∈ timeTokens, .month ∈ a.2 ∨ .hour ∈ a.2 := by decide
  cases hall a h with
  | inl hmonth =>
      obtain ⟨c, hc, hdigit⟩ := exists_digit_padded 2 now.date.month
      exact ⟨c, List.mem_flatMap.mpr ⟨_, hmonth, hc⟩, hdigit⟩
  | inr hhour =>
      obtain ⟨c, hc, hdigit⟩ := exists_digit_padded 2 now.hour
      exact ⟨c, List.mem_flatMap.mpr ⟨_, hhour, hc⟩, hdigit⟩

end

/-- The cut of a text none of whose tokens begins at the closing sign of another. -/
inductive Separated : Text → List (Piece TimeToken) → Prop where
  | nil : Separated [] []
  | char {c : Char} {t : Text} {pieces : List (Piece TimeToken)} : (∀ a, ¬ BeginsTime a (c :: t)) →
      Separated t pieces → Separated (c :: t) (.char c :: pieces)
  | token {a : TimeToken} {t : Text} {pieces : List (Piece TimeToken)} : a ∈ timeTokens →
      (∀ b, ¬ BeginsTime b ('%' :: t)) → Separated t pieces →
      Separated (a.1 ++ t) (.token a :: pieces)

section
variable {t : Text} {pieces : List (Piece TimeToken)}

theorem Covers.append {a : TimeToken} {front : Text} {i k : Nat} (h : Covers a t i k) :
    Covers a (front ++ t) (front.length + i) (front.length + k) := by
  obtain ⟨hbegins, hle, hlt⟩ := h
  refine ⟨?_, by omega, by omega⟩
  rw [List.drop_length_add_append]
  exact hbegins

theorem Apart.of_append {front : Text} (h : Apart (front ++ t)) : Apart t := by
  intro i j k a b hk ha hb
  have hsign : (front ++ t)[front.length + k]? = some '%' := by
    rw [List.getElem?_append_right (Nat.le_add_right _ _), Nat.add_sub_cancel_left]
    exact hk
  exact Nat.add_left_cancel (h _ _ _ a b hsign ha.append hb.append)

theorem separated_of_leftmost (h : Apart t) (hcut : Text.Leftmost BeginsTime Prod.fst t pieces) :
    Separated t pieces := by
  induction hcut with
  | nil => exact .nil
  | @char c t _ hnone _ ih =>
      have hmore : Apart ([c] ++ t) := h
      exact .char hnone (ih hmore.of_append)
  | @token a _ rest _ hbegins ht _ ih =>
      subst ht
      refine .token hbegins.1 (fun b hb => ?_) (ih h.of_append)
      obtain ⟨n, hn⟩ : ∃ n, n = ('%' :: inner a).length := ⟨_, rfl⟩
      have htoken := timeToken_eq hbegins.1
      have hclosing : (a.1 ++ rest).drop n = '%' :: rest := by
        rw [htoken, ← List.cons_append, List.append_assoc, hn, List.drop_append_length]
        rfl
      have hsign : (a.1 ++ rest)[n]? = some '%' := by
        rw [← List.head?_drop, hclosing]
        rfl
      have hlength : a.1.length = n + 1 := by
        rw [htoken, ← List.cons_append, List.length_append, hn]
        rfl
      have hpos := List.length_pos_iff.mpr hb.sound.1
      rw [← hclosing] at hb
      have heq := h 0 n n a b hsign ⟨hbegins, Nat.zero_le n, by omega⟩ ⟨hb, Nat.le_refl n, by omega⟩
      rw [← heq] at hn
      contradiction

theorem Separated.append_chars (h : Separated t pieces) {value : Text} (hvalue : '%' ∉ value) :
    Separated (value ++ t) (value.map .char ++ pieces) := by
  induction value with
  | nil => exact h
  | cons c value ih =>
      obtain ⟨hc, hvalue⟩ := not_or.mp (mt List.mem_cons.mpr hvalue)
      refine .char (fun a hbegins => hc ?_) (ih hvalue)
      obtain ⟨ha, hbegin⟩ := hbegins
      rw [timeToken_eq ha] at hbegin
      exact (List.cons_prefix_cons.mp hbegin).1

end

/-- A percent sign in a token opens or closes it. -/
theorem eq_or_nil_of_suffix {a : TimeToken} (ha : a ∈ timeTokens) {u : Text}
    (hu : '%' :: u <:+ a.1) : '%' :: u = a.1 ∨ u = [] := by
  rw [timeToken_eq ha, List.suffix_cons_iff] at hu
  cases hu with
  | inl hwhole => exact .inl (hwhole.trans (timeToken_eq ha).symm)
  | inr hinside =>
      refine .inr ?_
      obtain ⟨front, hfront⟩ := hinside
      cases List.eq_nil_or_concat u with
      | inl hnil => exact hnil
      | inr hlast =>
          obtain ⟨v, c, rfl⟩ := hlast
          rw [List.concat_eq_append, ← List.cons_append, ← List.append_assoc] at hfront
          have hinner := (List.append_inj' hfront rfl).1
          have hmem : '%' ∈ inner a := hinner ▸ List.mem_append_right front List.mem_cons_self
          exact absurd rfl (inner_chars ha '%' hmem).1

/-- The pieces when some tokens are replaced. -/
def settle (now : Instant) (done : List TimeToken) : Piece TimeToken → List (Piece TimeToken)
  | .char c => [.char c]
  | .token a => if a ∈ done then (now.write a.2).map .char else [.token a]

section
variable {a : TimeToken} (ha : a ∈ timeTokens) {t : Text} {pieces : List (Piece TimeToken)}
include ha

theorem replace_other (value : Text) {b : TimeToken} (hb : b ∈ timeTokens) (hne : b ≠ a)
    (hclosing : ∀ c, ¬ BeginsTime c ('%' :: t)) :
    Text.replace a.1 value (b.1 ++ t) = b.1 ++ Text.replace a.1 value t := by
  refine Text.replace_append value fun u hu hsuffix hbegin => ?_
  obtain ⟨c, u, rfl⟩ := List.exists_cons_of_ne_nil hu
  have hopening := hbegin
  rw [timeToken_eq ha] at hopening
  obtain ⟨rfl, -⟩ := List.cons_prefix_cons.mp hopening
  cases eq_or_nil_of_suffix hb hsuffix with
  | inl hwhole =>
      rw [hwhole] at hbegin
      exact hne (eq_of_isPrefix hb ha (List.prefix_append _ _) hbegin)
  | inr hnil =>
      subst hnil
      exact hclosing a ⟨ha, hbegin⟩

variable (now : Instant)

/-- The rest of a token is not made by a replacement: what is written holds a digit and no sign. -/
theorem prefix_of_prefix_replace (h : Separated t pieces) {rest : Text}
    (hrest : ∀ c ∈ rest, c ≠ '%' ∧ isDigit c = false)
    (hbegin : rest ++ ['%'] <+: Text.replace a.1 (now.write a.2) t) : rest ++ ['%'] <+: t := by
  induction h generalizing rest with
  | nil => exact hbegin
  | @char c t _ hnone _ ih =>
      rw [Text.replace_char _ fun hbegins => hnone a ⟨ha, hbegins⟩] at hbegin
      cases rest with
      | nil =>
          obtain ⟨hc, -⟩ := List.cons_prefix_cons.mp hbegin
          exact List.cons_prefix_cons.mpr ⟨hc, List.nil_prefix⟩
      | cons d rest =>
          obtain ⟨hd, hbegin⟩ := List.cons_prefix_cons.mp hbegin
          exact List.cons_prefix_cons.mpr ⟨hd, ih (List.forall_mem_cons.mp hrest).2 hbegin⟩
  | @token b t _ hb hclosing _ ih =>
      by_cases hba : b = a
      · subst hba
        exfalso
        rw [Text.replace_token _ (BeginsTime.sound ⟨hb, List.prefix_refl _⟩).1] at hbegin
        cases List.prefix_or_prefix_of_prefix hbegin (List.prefix_append (now.write b.2) _) with
        | inl hshorter =>
            have hsign : '%' ∈ rest ++ ['%'] := List.mem_append_right rest List.mem_cons_self
            exact percent_notMem_write now ha (hshorter.subset hsign)
        | inr hlonger =>
            obtain ⟨c, hc, hdigit⟩ := exists_digit_write now ha
            cases List.mem_append.mp (hlonger.subset hc) with
            | inl hinside =>
                rw [(hrest c hinside).2] at hdigit
                contradiction
            | inr hsign =>
                rw [List.mem_singleton.mp hsign] at hdigit
                contradiction
      · rw [replace_other ha _ hb hba hclosing, timeToken_eq hb] at hbegin
        rw [timeToken_eq hb]
        cases rest with
        | nil => exact List.cons_prefix_cons.mpr ⟨rfl, List.nil_prefix⟩
        | cons d rest =>
            obtain ⟨hd, -⟩ := List.cons_prefix_cons.mp hbegin
            exact absurd hd (hrest d List.mem_cons_self).1

theorem begins_of_begins_replace (h : Separated t pieces) {b : TimeToken} {c : Char}
    (hb : BeginsTime b (c :: Text.replace a.1 (now.write a.2) t)) : BeginsTime b (c :: t) := by
  obtain ⟨hmem, hbegin⟩ := hb
  refine ⟨hmem, ?_⟩
  rw [timeToken_eq hmem] at hbegin ⊢
  obtain ⟨hc, hrest⟩ := List.cons_prefix_cons.mp hbegin
  exact List.cons_prefix_cons.mpr
    ⟨hc, prefix_of_prefix_replace ha now h (inner_chars hmem) hrest⟩

/-- Replacing a token takes its pieces out of the cut and leaves the others. -/
theorem Separated.replace (h : Separated t pieces) :
    Separated (Text.replace a.1 (now.write a.2) t) (pieces.flatMap (settle now [a])) := by
  induction h with
  | nil => exact .nil
  | @char c t _ hnone hrest ih =>
      rw [Text.replace_char _ fun hbegins => hnone a ⟨ha, hbegins⟩]
      exact .char (fun b hb => hnone b (begins_of_begins_replace ha now hrest hb)) ih
  | @token b t _ hb hclosing hrest ih =>
      rw [List.flatMap_cons, settle]
      by_cases hba : b = a
      · subst hba
        rw [Text.replace_token _ (BeginsTime.sound ⟨hb, List.prefix_refl _⟩).1,
          if_pos List.mem_cons_self]
        exact ih.append_chars (percent_notMem_write now ha)
      · rw [replace_other ha _ hb hba hclosing, if_neg (by simpa using hba)]
        exact .token hb (fun c hc => hclosing c (begins_of_begins_replace ha now hrest hc)) ih

end

/-- Replaces some tokens, each in the text that the one before it left. -/
def replaceEach (now : Instant) (order : List TimeToken) (t : Text) : Text :=
  order.foldl (fun t a => Text.replace a.1 (now.write a.2) t) t

/-- Replaces all tokens in one pass from left to right. -/
def replaceAtOnce (now : Instant) (t : Text) : Text :=
  t.substitute timeToken? Prod.fst fun a => now.write a.2

theorem settle_nil (now : Instant) (pieces : List (Piece TimeToken)) :
    pieces.flatMap (settle now []) = pieces := by
  induction pieces with
  | nil => rfl
  | cons piece pieces ih =>
      rw [List.flatMap_cons, ih]
      cases piece <;> rfl

theorem settle_settle (now : Instant) (a : TimeToken) (done : List TimeToken)
    (pieces : List (Piece TimeToken)) :
    (pieces.flatMap (settle now [a])).flatMap (settle now done) =
      pieces.flatMap (settle now (a :: done)) := by
  have hchars (t : Text) : (t.map Piece.char).flatMap (settle now done) = t.map .char := by
    rw [List.flatMap_map, List.map_eq_flatMap]
    rfl
  rw [List.flatMap_assoc]
  congr 1
  funext piece
  cases piece with
  | char c => rfl
  | token b =>
      simp only [settle, List.mem_cons, List.not_mem_nil, or_false]
      by_cases hb : b = a
      · rw [if_pos hb, if_pos (.inl hb), hchars]
      · rw [if_neg hb, List.flatMap_singleton]
        simp only [settle, hb, false_or]

theorem Separated.replaceEach {now : Instant} {order : List TimeToken} {t : Text}
    {pieces : List (Piece TimeToken)} (h : Separated t pieces)
    (horder : ∀ a ∈ order, a ∈ timeTokens) :
    Separated (replaceEach now order t) (pieces.flatMap (settle now order)) := by
  induction order generalizing t pieces with
  | nil =>
      rw [settle_nil]
      exact h
  | cons a order ih =>
      obtain ⟨ha, horder⟩ := List.forall_mem_cons.mp horder
      rw [← settle_settle]
      exact ih (h.replace ha now) horder

section
variable {t : Text} {pieces : List (Piece TimeToken)} (h : Separated t pieces)
include h

theorem Separated.text : pieces.flatMap (Piece.text Prod.fst) = t := by
  induction h with
  | nil => rfl
  | char _ _ ih => exact congrArg (List.cons _) ih
  | token _ _ _ ih => exact congrArg (_ ++ ·) ih

theorem Separated.mem_timeTokens {a : TimeToken} (ha : .token a ∈ pieces) : a ∈ timeTokens := by
  induction h with
  | nil => contradiction
  | char _ _ ih =>
      cases List.mem_cons.mp ha with
      | inl heq => contradiction
      | inr hmem => exact ih hmem
  | token hb _ _ ih =>
      cases List.mem_cons.mp ha with
      | inl heq => exact Piece.token.inj heq ▸ hb
      | inr hmem => exact ih hmem

theorem Separated.exists_piece {before : Text} {a : TimeToken} {after : Text} (ha : a ∈ timeTokens)
    (ht : t = before ++ a.1 ++ after) :
    ∃ front back, pieces = front ++ .token a :: back ∧
      front.flatMap (Piece.text Prod.fst) = before ∧
      back.flatMap (Piece.text Prod.fst) = after := by
  have hne := (BeginsTime.sound ⟨ha, List.prefix_refl a.1⟩).1
  induction h generalizing before with
  | nil =>
      obtain ⟨hbefore, -⟩ := List.append_eq_nil_iff.mp ht.symm
      exact absurd (List.append_eq_nil_iff.mp hbefore).2 hne
  | @char c t _ hnone _ ih =>
      cases before with
      | nil => exact absurd ⟨ha, after, ht.symm⟩ (hnone a)
      | cons d before =>
          obtain ⟨rfl, hrest⟩ := List.cons.inj ht
          obtain ⟨front, back, hpieces, hfront, hback⟩ := ih hrest
          exact ⟨.char c :: front, back, congrArg (List.cons _) hpieces,
            congrArg (List.cons c) hfront, hback⟩
  | @token b t pieces hb hclosing hrest ih =>
      have hbehind {d : Text} (ht : t = d ++ a.1 ++ after) (hbefore : before = b.1 ++ d) :
          ∃ front back, .token b :: pieces = front ++ .token a :: back ∧
            front.flatMap (Piece.text Prod.fst) = before ∧
            back.flatMap (Piece.text Prod.fst) = after := by
        obtain ⟨front, back, hpieces, hfront, hback⟩ := ih ht
        refine ⟨.token b :: front, back, congrArg (List.cons _) hpieces, ?_, hback⟩
        rw [List.flatMap_cons, hfront, hbefore]
        rfl
      rw [List.append_assoc] at ht
      cases List.append_eq_append_iff.mp ht with
      | inl hlater =>
          obtain ⟨d, hbefore, hd⟩ := hlater
          exact hbehind (hd.trans (List.append_assoc _ _ _).symm) hbefore
      | inr hinside =>
          obtain ⟨d, hb', hafter⟩ := hinside
          cases d with
          | nil =>
              exact hbehind (d := []) hafter.symm (by rw [List.append_nil, hb', List.append_nil])
          | cons c d =>
              -- The token begins within the other one, so it is that token.
              have hopening := hafter
              rw [timeToken_eq ha, List.cons_append, List.cons_append] at hopening
              obtain ⟨rfl, -⟩ := List.cons.inj hopening
              cases eq_or_nil_of_suffix hb ⟨before, hb'.symm⟩ with
              | inl hwhole =>
                  rw [hwhole] at hb' hafter
                  obtain rfl : before = [] := List.append_left_eq_self.mp hb'.symm
                  obtain rfl := eq_of_isPrefix ha hb ⟨after, rfl⟩ ⟨t, hafter.symm⟩
                  exact ⟨[], pieces, rfl, rfl,
                    hrest.text.trans (List.append_cancel_left hafter).symm⟩
              | inr hnil =>
                  subst hnil
                  exact absurd ⟨ha, after, hafter⟩ (hclosing a)

theorem Separated.cutsOut : CutsOut t pieces :=
  ⟨h.text, fun _ => h.mem_timeTokens, fun _ _ _ => h.exists_piece⟩

end

theorem text_settle (now : Instant) {done : List TimeToken} {pieces : List (Piece TimeToken)}
    (h : ∀ a, .token a ∈ pieces → a ∈ done) :
    (pieces.flatMap (settle now done)).flatMap (Piece.text Prod.fst) =
      pieces.flatMap (Piece.text fun a => now.write a.2) := by
  have hchars (t : Text) : (t.map Piece.char).flatMap (Piece.text (Prod.fst : TimeToken → Text)) =
      t := by
    rw [List.flatMap_map]
    exact List.flatMap_singleton' t
  induction pieces with
  | nil => rfl
  | cons piece pieces ih =>
      have hrest := ih fun a ha => h a (List.mem_cons_of_mem _ ha)
      rw [List.flatMap_cons, List.flatMap_append, hrest, List.flatMap_cons]
      cases piece with
      | char c => rfl
      | token a => rw [settle, if_pos (h a List.mem_cons_self), hchars, Piece.text]

/-- Where no two tokens overlap, replacing them one kind after another in any order, as the table
has them or otherwise, is to replace them all at once. After any number of kinds the tokens that
stand in the text are those of the other kinds, where they stood before: none is made and none is
broken. -/
theorem replaceTimes_at_once (now : Instant) {t : Text} (h : Apart t) :
    replaceTimes now t = replaceAtOnce now t ∧
      CutsOut t (t.pieces timeToken? Prod.fst) ∧
      ∀ order : List TimeToken, order.Perm timeTokens →
        replaceEach now order t = replaceAtOnce now t ∧
        ∀ done, done <+: order → CutsOut (replaceEach now done t)
          ((t.pieces timeToken? Prod.fst).flatMap (settle now done)) := by
  have hcut := separated_of_leftmost h (leftmost_times_iff.mpr rfl)
  have horder (order : List TimeToken) (hperm : order.Perm timeTokens) :
      replaceEach now order t = replaceAtOnce now t ∧
        ∀ done, done <+: order → CutsOut (replaceEach now done t)
          ((t.pieces timeToken? Prod.fst).flatMap (settle now done)) := by
    have hmem {done : List TimeToken} (hdone : done <+: order) : ∀ a ∈ done, a ∈ timeTokens :=
      fun a ha => hperm.subset (hdone.subset ha)
    refine ⟨?_, fun done hdone => (hcut.replaceEach (hmem hdone)).cutsOut⟩
    rw [← (hcut.replaceEach (hmem (List.prefix_refl order))).text]
    exact text_settle now fun a ha => hperm.symm.subset (hcut.mem_timeTokens ha)
  exact ⟨(horder timeTokens (.refl _)).1, hcut.cutsOut, horder⟩

/-- A year before the common era and a leap second, among signs that belong to no token. -/
theorem replaceTimes_at_once_reversed :
    Apart "%%YYYY-MM-DD%%nn%hh%hh:mm:ss%%%hhmm%D".toList ∧
      replaceEach ⟨⟨-44, 3, 15⟩, 23, 59, 59, 1000000000⟩ timeTokens.reverse
          "%%YYYY-MM-DD%%nn%hh%hh:mm:ss%%%hhmm%D".toList =
        replaceAtOnce ⟨⟨-44, 3, 15⟩, 23, 59, 59, 1000000000⟩
          "%%YYYY-MM-DD%%nn%hh%hh:mm:ss%%%hhmm%D".toList ∧
      replaceAtOnce ⟨⟨-44, 3, 15⟩, 23, 59, 59, 1000000000⟩
          "%%YYYY-MM-DD%%nn%hh%hh:mm:ss%%%hhmm%D".toList =
        "%-0044-03-15%nn%hh23:59:60%2359D".toList := by
  have happart : Apart "%%YYYY-MM-DD%%nn%hh%hh:mm:ss%%%hhmm%D".toList := by decide +kernel
  obtain ⟨-, -, horder⟩ :=
    replaceTimes_at_once ⟨⟨-44, 3, 15⟩, 23, 59, 59, 1000000000⟩ happart
  exact ⟨happart, (horder _ (List.reverse_perm _)).1, by decide +kernel⟩

/-- The sign between two tokens is taken by the one that is replaced first. -/
example : replaceEach ⟨⟨2026, 2, 24⟩, 13, 7, 9, 0⟩ timeTokens "%hhmm%YYMMDD%".toList =
      "%hhmm260224".toList ∧
    replaceEach ⟨⟨2026, 2, 24⟩, 13, 7, 9, 0⟩ timeTokens.reverse "%hhmm%YYMMDD%".toList =
      "1307YYMMDD%".toList := by decide +kernel

end UniqueId
end Placeholders
