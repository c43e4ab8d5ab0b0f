import Placeholders.Proofs.Text.Splitting

/-!
Which tokens a search from left to right finds. The cut is described without the search: a token
stands wherever one begins behind the last token, and no token begins at a character that is left.
-/

namespace Placeholders
namespace Text

section
variable {α : Type} {begins : α → Text → Prop} {written : α → Text}

/-- The cut of a text into its leftmost tokens that do not overlap and the characters between. -/
inductive Leftmost (begins : α → Text → Prop) (written : α → Text) :
    Text → List (Piece α) → Prop where
  | nil : Leftmost begins written [] []
  | char {c : Char} {t : Text} {pieces : List (Piece α)} : (∀ a, ¬ begins a (c :: t)) →
      Leftmost begins written t pieces → Leftmost begins written (c :: t) (.char c :: pieces)
  | token {a : α} {t rest : Text} {pieces : List (Piece α)} : begins a t → t = written a ++ rest →
      Leftmost begins written rest pieces → Leftmost begins written t (.token a :: pieces)

theorem Leftmost.begins_of_mem {t : Text} {pieces : List (Piece α)} {a : α}
    (h : Leftmost begins written t pieces) (ha : .token a ∈ pieces) : ∃ u, begins a u := by
  induction h with
  | nil => contradiction
  | char _ _ ih =>
      cases List.mem_cons.mp ha with
      | inl heq => contradiction
      | inr hmem => exact ih hmem
  | @token b t _ _ hbegins _ _ ih =>
      cases List.mem_cons.mp ha with
      | inl heq =>
          obtain rfl := Piece.token.inj heq
          exact ⟨t, hbegins⟩
      | inr hmem => exact ih hmem

section
variable {recognise : Text → Option α} (exact : ∀ {t a}, recognise t = some a ↔ begins a t)
  (sound : ∀ {t a}, begins a t → written a ≠ [] ∧ written a <+: t)
include exact sound

theorem leftmost_pieces (t : Text) : Leftmost begins written t (t.pieces recognise written) := by
  suffices ∀ n, Leftmost begins written (t.drop n) (piecesAfter recognise written n t) from this 0
  induction t with
  | nil => intro n; cases n <;> exact .nil
  | cons c t ih =>
      intro n
      cases n with
      | succ n => exact ih n
      | zero =>
          simp only [piecesAfter, List.drop_zero]
          split
          · next a h =>
            have hbegins := exact.mp h
            obtain ⟨hne, rest, ht⟩ := sound hbegins
            obtain ⟨d, w, hw⟩ := List.exists_cons_of_ne_nil hne
            have hrest : t.drop ((written a).length - 1) = rest := by
              rw [hw, List.cons_append] at ht
              simp [← (List.cons.inj ht).2, hw]
            exact .token hbegins ht.symm (hrest ▸ ih _)
          · next h =>
            refine .char (fun a ha => ?_) (ih 0)
            rw [exact.mpr ha] at h
            contradiction

/-- There is one cut, and the search finds it. -/
theorem leftmost_iff {t : Text} {cut : List (Piece α)} :
    Leftmost begins written t cut ↔ cut = t.pieces recognise written := by
  constructor
  · intro h
    induction h with
    | nil => rfl
    | @char c t _ hnone _ ih =>
        have hc : recognise (c :: t) = none :=
          Option.eq_none_iff_forall_ne_some.mpr fun a ha => hnone a (exact.mp ha)
        rw [ih, pieces_char hc]
    | token hbegins ht _ ih =>
        subst ht
        rw [ih, pieces_token (exact.mpr hbegins) (sound hbegins).1]
  · intro h
    rw [h]
    exact leftmost_pieces exact sound t

end

end

end Text
end Placeholders
