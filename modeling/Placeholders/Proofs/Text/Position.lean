import Placeholders.Text

/-!
Positions in a text: offsets in bytes, the slice between two of them, and the first occurrence of a
piece of text. An offset is a position only where a character begins or the text ends.
-/

namespace Placeholders
namespace Text

/-- What stands before and after byte `n`; nothing if the byte is inside a character or past the
end. -/
def splitAtByte? : Nat → Text → Option (Text × Text)
  | 0, t => some ([], t)
  | _ + 1, [] => none
  | n + 1, c :: t =>
    if c.utf8Size ≤ n + 1 then
      (splitAtByte? (n + 1 - c.utf8Size) t).map fun (before, rest) => (c :: before, rest)
    else none

def fromByte? (n : Nat) (t : Text) : Option Text := (splitAtByte? n t).map Prod.snd

/-- The text from byte `start` up to byte `stop`, if both are positions. -/
def slice? (start stop : Nat) (t : Text) : Option Text :=
  (splitAtByte? stop t).bind fun (front, _) => front.fromByte? start

@[simp] theorem byteSize_nil : byteSize [] = 0 := rfl

@[simp] theorem byteSize_cons (c : Char) (t : Text) :
    byteSize (c :: t) = c.utf8Size + byteSize t := rfl

theorem length_le_byteSize (t : Text) : t.length ≤ t.byteSize := by
  induction t with
  | nil => exact Nat.le_refl 0
  | cons c t ih =>
      have hc := c.utf8Size_pos
      simp only [List.length_cons, byteSize_cons]
      omega

theorem byteSize_pos {t : Text} (h : t ≠ []) : 0 < t.byteSize :=
  Nat.lt_of_lt_of_le (List.length_pos_iff.mpr h) (length_le_byteSize t)

theorem prefix_of_byteSize_le {a b s u : Text} (h : a ++ s = b ++ u)
    (hle : a.byteSize ≤ b.byteSize) : a <+: b := by
  cases List.append_eq_append_iff.mp h with
  | inl hprefix =>
      obtain ⟨d, hb, _⟩ := hprefix
      exact ⟨d, hb.symm⟩
  | inr hlonger =>
      obtain ⟨d, ha, _⟩ := hlonger
      cases d with
      | nil => exact ⟨[], by simp [ha]⟩
      | cons c d =>
          have hpos := byteSize_pos (List.cons_ne_nil c d)
          rw [ha, byteSize_append] at hle
          omega

theorem splitAtByte?_append (before rest : Text) :
    splitAtByte? before.byteSize (before ++ rest) = some (before, rest) := by
  induction before with
  | nil => cases rest <;> rfl
  | cons c before ih =>
      have hc := c.utf8Size_pos
      obtain ⟨n, hn⟩ : ∃ n, c.utf8Size + byteSize before = n + 1 :=
        Nat.exists_eq_add_one.mpr (by omega)
      have hrest : n + 1 - c.utf8Size = byteSize before := by omega
      rw [byteSize_cons, hn, List.cons_append, splitAtByte?, if_pos (by omega), hrest, ih]
      rfl

theorem splitAtByte?_eq_some {n : Nat} {t before rest : Text}
    (h : splitAtByte? n t = some (before, rest)) : t = before ++ rest ∧ before.byteSize = n := by
  fun_induction splitAtByte? n t generalizing before with
  | case1 t =>
      obtain ⟨rfl, rfl⟩ : [] = before ∧ t = rest := by simpa using h
      exact ⟨rfl, rfl⟩
  | case2 => contradiction
  | case3 n c t hle ih =>
      obtain ⟨⟨b, r⟩, hsplit, hpair⟩ := Option.map_eq_some_iff.mp h
      obtain ⟨rfl, rfl⟩ : c :: b = before ∧ r = rest := by simpa using hpair
      obtain ⟨rfl, hb⟩ := ih hsplit
      refine ⟨rfl, ?_⟩
      rw [byteSize_cons]
      omega
  | case4 => contradiction

theorem splitAtByte?_eq_some_iff {n : Nat} {t before rest : Text} :
    splitAtByte? n t = some (before, rest) ↔ t = before ++ rest ∧ before.byteSize = n := by
  refine ⟨splitAtByte?_eq_some, ?_⟩
  intro h
  obtain ⟨rfl, rfl⟩ := h
  exact splitAtByte?_append before rest

theorem fromByte?_eq_some_iff {n : Nat} {t rest : Text} :
    fromByte? n t = some rest ↔ ∃ before, t = before ++ rest ∧ before.byteSize = n := by
  simp only [fromByte?, Option.map_eq_some_iff, Prod.exists, splitAtByte?_eq_some_iff]
  constructor
  · intro h
    obtain ⟨before, r, hsplit, rfl⟩ := h
    exact ⟨before, hsplit⟩
  · intro h
    obtain ⟨before, hsplit⟩ := h
    exact ⟨before, rest, hsplit, rfl⟩

theorem fromByte?_append (before rest : Text) :
    (before ++ rest).fromByte? before.byteSize = some rest :=
  fromByte?_eq_some_iff.mpr ⟨before, rfl, rfl⟩

theorem fromByte?_zero (t : Text) : t.fromByte? 0 = some t := fromByte?_append [] t

theorem fromByte?_cons (c : Char) (n : Nat) (t : Text) :
    fromByte? (c.utf8Size + n) (c :: t) = fromByte? n t := by
  have hc := c.utf8Size_pos
  ext rest
  simp only [fromByte?_eq_some_iff]
  constructor
  · intro h
    obtain ⟨before, h, hn⟩ := h
    cases before with
    | nil =>
        rw [byteSize_nil] at hn
        omega
    | cons d before =>
        obtain ⟨rfl, rfl⟩ := List.cons.inj h
        rw [byteSize_cons] at hn
        exact ⟨before, rfl, by omega⟩
  · intro h
    obtain ⟨before, rfl, rfl⟩ := h
    exact ⟨c :: before, rfl, byteSize_cons c before⟩

theorem fromByte?_inside {c : Char} {n : Nat} {t : Text} (hpos : 0 < n) (hlt : n < c.utf8Size) :
    fromByte? n (c :: t) = none := by
  rw [Option.eq_none_iff_forall_ne_some]
  intro rest h
  obtain ⟨before, h, hn⟩ := fromByte?_eq_some_iff.mp h
  cases before with
  | nil =>
      rw [byteSize_nil] at hn
      omega
  | cons d before =>
      obtain ⟨rfl, _⟩ := List.cons.inj h
      rw [byteSize_cons] at hn
      omega

theorem slice?_eq_some_iff {start stop : Nat} {t u : Text} :
    slice? start stop t = some u ↔ ∃ before after, t = before ++ u ++ after ∧
      before.byteSize = start ∧ (before ++ u).byteSize = stop := by
  simp only [slice?, Option.bind_eq_some_iff, Prod.exists, splitAtByte?_eq_some_iff,
    fromByte?_eq_some_iff]
  constructor
  · intro h
    obtain ⟨front, after, ⟨rfl, hstop⟩, before, rfl, hstart⟩ := h
    exact ⟨before, after, rfl, hstart, hstop⟩
  · intro h
    obtain ⟨before, after, rfl, hstart, hstop⟩ := h
    exact ⟨before ++ u, after, ⟨rfl, hstop⟩, before, rfl, hstart⟩

/-- `mark` occurs in `t` between `before` and `after`, and nowhere earlier. -/
def FirstCut (mark t before after : Text) : Prop :=
  t = before ++ mark ++ after ∧
    ∀ before' after', t = before' ++ mark ++ after' → before.length ≤ before'.length

theorem FirstCut.unique {mark t before after before' after' : Text}
    (h : FirstCut mark t before after) (h' : FirstCut mark t before' after') :
    before = before' ∧ after = after' := by
  have hlen := Nat.le_antisymm (h.2 _ _ h'.1) (h'.2 _ _ h.1)
  have heq : before ++ (mark ++ after) = before' ++ (mark ++ after') := by
    simpa only [List.append_assoc] using h.1.symm.trans h'.1
  obtain ⟨rfl, hrest⟩ := List.append_inj heq hlen
  exact ⟨rfl, List.append_cancel_left hrest⟩

theorem isPrefixOf?_eq_none_iff {mark t : Text} :
    mark.isPrefixOf? t = none ↔ ∀ rest, t ≠ mark ++ rest := by
  rw [Option.eq_none_iff_forall_ne_some]
  exact forall_congr' fun _ => not_congr isPrefixOf?_eq_some_iff

theorem firstCut_nil {mark t rest : Text} (h : t = mark ++ rest) : FirstCut mark t [] rest :=
  ⟨h, fun _ _ _ => Nat.zero_le _⟩

theorem firstCut_cons {mark t before after : Text} {c : Char} (hc : ∀ rest, c :: t ≠ mark ++ rest)
    (h : FirstCut mark t before after) : FirstCut mark (c :: t) (c :: before) after := by
  refine ⟨by simp [h.1], ?_⟩
  intro b a hb
  cases b with
  | nil => exact absurd hb (hc a)
  | cons d b =>
      have hb : t = b ++ mark ++ a := (List.cons.inj hb).2
      exact Nat.succ_le_succ (h.2 b a hb)

theorem exists_firstCut_of_infix {mark t : Text} (h : mark <:+: t) :
    ∃ before after, cutAt mark t = some (before, after) ∧ FirstCut mark t before after := by
  induction t with
  | nil =>
      obtain rfl := List.infix_nil.mp h
      exact ⟨[], [], rfl, firstCut_nil rfl⟩
  | cons c t ih =>
      simp only [cutAt]
      split
      · next rest hr =>
        exact ⟨[], rest, rfl, firstCut_nil (isPrefixOf?_eq_some_iff.mp hr)⟩
      · next hr =>
        have hc := isPrefixOf?_eq_none_iff.mp hr
        have ht : mark <:+: t := by
          cases List.infix_cons_iff.mp h with
          | inl hprefix => exact absurd hprefix.choose_spec.symm (hc hprefix.choose)
          | inr ht => exact ht
        obtain ⟨before, after, hcut, hfirst⟩ := ih ht
        exact ⟨c :: before, after, by simp [hcut], firstCut_cons hc hfirst⟩

theorem cutAt_eq_some_iff {mark t before after : Text} :
    cutAt mark t = some (before, after) ↔ FirstCut mark t before after := by
  have hfound {b a : Text} (h : t = b ++ mark ++ a) :
      ∃ before after, cutAt mark t = some (before, after) ∧ FirstCut mark t before after :=
    exists_firstCut_of_infix ⟨b, a, h.symm⟩
  constructor
  · intro h
    obtain ⟨b, a, hcut, hfirst⟩ := hfound (cutAt_eq_some h)
    obtain ⟨rfl, rfl⟩ : before = b ∧ after = a := by simpa using h.symm.trans hcut
    exact hfirst
  · intro h
    obtain ⟨b, a, hcut, hfirst⟩ := hfound h.1
    obtain ⟨rfl, rfl⟩ := h.unique hfirst
    exact hcut

theorem cutAt_eq_none_iff {mark t : Text} : cutAt mark t = none ↔ ¬ mark <:+: t := by
  constructor
  · intro hnone h
    obtain ⟨before, after, hcut, _⟩ := exists_firstCut_of_infix h
    rw [hnone] at hcut
    contradiction
  · intro h
    cases hcut : cutAt mark t with
    | none => rfl
    | some cut =>
        obtain ⟨before, after⟩ := cut
        exact absurd ⟨before, after, (cutAt_eq_some hcut).symm⟩ h

theorem cutAt_singleton {c : Char} {before : Text} (h : c ∉ before) (after : Text) :
    cutAt [c] (before ++ c :: after) = some (before, after) := by
  refine cutAt_eq_some_iff.mpr ⟨by simp, ?_⟩
  intro b a heq
  rw [List.append_assoc, List.singleton_append] at heq
  cases List.append_eq_append_iff.mp heq with
  | inl hlonger =>
      obtain ⟨d, rfl, _⟩ := hlonger
      simp
  | inr hshorter =>
      obtain ⟨d, rfl, hd⟩ := hshorter
      cases d with
      | nil => simp
      | cons x d =>
          obtain ⟨rfl, _⟩ := List.cons.inj hd
          simp at h

theorem cutAt_singleton_eq_some_iff {c : Char} {t before after : Text} :
    cutAt [c] t = some (before, after) ↔ t = before ++ c :: after ∧ c ∉ before := by
  constructor
  · intro h
    have hmem : c ∈ t := by simp [cutAt_eq_some h]
    obtain ⟨b, a, rfl, hb⟩ := List.eq_append_cons_of_mem hmem
    obtain ⟨rfl, rfl⟩ := Prod.mk.inj (Option.some.inj ((cutAt_singleton hb a).symm.trans h))
    exact ⟨rfl, hb⟩
  · rintro ⟨rfl, hbefore⟩
    exact cutAt_singleton hbefore after

end Text
end Placeholders
