import Placeholders.Text.EditDistance

/-!
The distance of two texts is the length of the shortest way from the one to the other, where each
step inserts, deletes or substitutes a single character anywhere.
-/

namespace Placeholders
namespace Text

/-- One character is put in, taken out or put in the place of another. -/
inductive Edit : Text → Text → Prop where
  | insertion (before after : Text) (c : Char) : Edit (before ++ after) (before ++ c :: after)
  | deletion (before after : Text) (c : Char) : Edit (before ++ c :: after) (before ++ after)
  | substitution (before after : Text) (c d : Char) :
      Edit (before ++ c :: after) (before ++ d :: after)

/-- A text becomes another one by so many edits, one after another. -/
inductive Edits : Nat → Text → Text → Prop where
  | refl (t : Text) : Edits 0 t t
  | step {n : Nat} {t u v : Text} : Edit t u → Edits n u v → Edits (n + 1) t v

/-- No way from the one text to the other has fewer edits than the shortest. -/
structure IsDistance (n : Nat) (t u : Text) : Prop where
  edits : Edits n t u
  least : ∀ k, Edits k t u → n ≤ k

theorem extendRow_ne_nil {x : Char} {ys : Text} {ds : List Nat} (h : ds ≠ []) :
    extendRow x ys ds ≠ [] := by
  fun_induction extendRow x ys ds with
  | case1 => exact List.cons_ne_nil _ _
  | case2 y ys d d' ds hnil ih => exact absurd hnil (ih (List.cons_ne_nil _ _))
  | case3 ys ds _ => exact mt List.map_eq_nil_iff.mp h

theorem distanceRow_ne_nil (other t : Text) : distanceRow other t ≠ [] := by
  induction t with
  | nil => simp [distanceRow]
  | cons x t ih => exact extendRow_ne_nil ih

theorem distanceRow_eq (other t : Text) :
    distanceRow other t = editDistance t other :: (distanceRow other t).tail := by
  obtain ⟨d, ds, h⟩ := List.exists_cons_of_ne_nil (distanceRow_ne_nil other t)
  rw [editDistance, h]
  rfl

theorem extendRow_cons (x y : Char) {ys : Text} {d d' e : Nat} {ds es : List Nat}
    (h : extendRow x ys (d' :: ds) = e :: es) : extendRow x (y :: ys) (d :: d' :: ds) =
      min (min (d + 1) (e + 1)) (if x = y then d' else d' + 1) :: e :: es := by
  rw [extendRow, h]

/-- A row goes on as the row of the rest of the other text. -/
theorem distanceRow_cons (y : Char) (ys t : Text) :
    distanceRow (y :: ys) t = editDistance t (y :: ys) :: distanceRow ys t := by
  rw [distanceRow_eq (y :: ys) t]
  congr 1
  induction t with
  | nil => simp [distanceRow, List.range_succ]
  | cons x t ih =>
      have hrow := distanceRow_eq (y :: ys) t
      rw [ih, distanceRow_eq ys t] at hrow
      have hnext := distanceRow_eq ys (x :: t)
      rw [distanceRow, distanceRow_eq ys t] at hnext
      rw [distanceRow, hrow, extendRow_cons x y hnext, ← hnext, ← distanceRow_eq ys t]
      rfl

theorem editDistance_nil (u : Text) : editDistance [] u = u.length := by
  simp [editDistance, distanceRow, List.range_succ]

theorem editDistance_nil_right (t : Text) : editDistance t [] = t.length := by
  induction t with
  | nil => rfl
  | cons x t ih =>
      rw [editDistance, distanceRow, distanceRow_eq, ih]
      rfl

theorem editDistance_cons (x y : Char) (t u : Text) : editDistance (x :: t) (y :: u) =
    min (min (editDistance t (y :: u) + 1) (editDistance (x :: t) u + 1))
      (if x = y then editDistance t u else editDistance t u + 1) := by
  have hrow := distanceRow_eq u (x :: t)
  rw [distanceRow, distanceRow_eq u t] at hrow
  rw [editDistance, distanceRow, distanceRow_cons, distanceRow_eq u t, extendRow_cons x y hrow]
  rfl

theorem Edit.cons {t u : Text} (h : Edit t u) (c : Char) : Edit (c :: t) (c :: u) := by
  cases h with
  | insertion before after d => exact .insertion (c :: before) after d
  | deletion before after d => exact .deletion (c :: before) after d
  | substitution before after d e => exact .substitution (c :: before) after d e

section
variable {n m : Nat} {t u v : Text}

theorem Edits.cons (h : Edits n t u) (c : Char) : Edits n (c :: t) (c :: u) := by
  induction h with
  | refl t => exact .refl (c :: t)
  | step hedit _ ih => exact .step (hedit.cons c) ih

theorem Edits.concat (h : Edits n t u) (hedit : Edit u v) : Edits (n + 1) t v := by
  induction h with
  | refl t => exact .step hedit (.refl v)
  | step hfirst _ ih => exact .step hfirst (ih hedit)

theorem Edits.min (h : Edits n t u) (h' : Edits m t u) : Edits (min n m) t u := by
  cases Nat.le_total n m with
  | inl hle => rwa [Nat.min_eq_left hle]
  | inr hle => rwa [Nat.min_eq_right hle]

end

theorem edits_editDistance (t u : Text) : Edits (editDistance t u) t u := by
  induction t generalizing u with
  | nil =>
      rw [editDistance_nil]
      induction u with
      | nil => exact .refl []
      | cons y u ih => exact ih.concat (.insertion [] u y)
  | cons x t iht =>
      induction u with
      | nil =>
          rw [editDistance_nil_right, List.length_cons, ← editDistance_nil_right t]
          exact .step (.deletion [] t x) (iht [])
      | cons y u ihu =>
          rw [editDistance_cons]
          have hdelete : Edits (editDistance t (y :: u) + 1) (x :: t) (y :: u) :=
            .step (.deletion [] t x) (iht (y :: u))
          have hinsert : Edits (editDistance (x :: t) u + 1) (x :: t) (y :: u) :=
            ihu.concat (.insertion [] u y)
          have hreplace : Edits (if x = y then editDistance t u else editDistance t u + 1)
              (x :: t) (y :: u) := by
            split
            · next heq => exact heq ▸ (iht u).cons x
            · exact .step (.substitution [] t x y) ((iht u).cons y)
          exact (hdelete.min hinsert).min hreplace

theorem editDistance_self (t : Text) : editDistance t t = 0 := by
  induction t with
  | nil => rfl
  | cons x t ih => rw [editDistance_cons, if_pos rfl, ih, Nat.min_zero]

theorem editDistance_cons_le (x : Char) (t u : Text) :
    editDistance (x :: t) u ≤ editDistance t u + 1 := by
  cases u with
  | nil => simp [editDistance_nil_right]
  | cons y u =>
      rw [editDistance_cons]
      omega

theorem editDistance_cons_right_le (t : Text) (y : Char) (u : Text) :
    editDistance t (y :: u) ≤ editDistance t u + 1 := by
  cases t with
  | nil => simp [editDistance_nil]
  | cons x t =>
      rw [editDistance_cons]
      omega

theorem editDistance_le_cons (x : Char) (t u : Text) :
    editDistance t u ≤ editDistance (x :: t) u + 1 := by
  induction u with
  | nil =>
      rw [editDistance_nil_right, editDistance_nil_right, List.length_cons]
      omega
  | cons y u ih =>
      have hright := editDistance_cons_right_le t y u
      rw [editDistance_cons]
      split <;> omega

theorem editDistance_substitute_le (c d : Char) (t u : Text) :
    editDistance (c :: t) u ≤ editDistance (d :: t) u + 1 := by
  induction u with
  | nil => simp [editDistance_nil_right]
  | cons y u ih =>
      rw [editDistance_cons, editDistance_cons]
      split <;> split <;> omega

/-- Texts that are close stay close behind the same character. -/
theorem editDistance_cons_le_cons {t t' : Text}
    (h : ∀ u, editDistance t u ≤ editDistance t' u + 1) (x : Char) (u : Text) :
    editDistance (x :: t) u ≤ editDistance (x :: t') u + 1 := by
  induction u with
  | nil =>
      have hnil := h []
      simpa [editDistance_nil_right] using hnil
  | cons y u ih =>
      have hcons := h (y :: u)
      have hrest := h u
      rw [editDistance_cons, editDistance_cons]
      split <;> omega

/-- An edit changes all distances by one at most. -/
theorem Edit.editDistance_le {t t' : Text} (h : Edit t t') (u : Text) :
    editDistance t u ≤ editDistance t' u + 1 := by
  have hbehind (before : Text) {t t' : Text} (h : ∀ u, editDistance t u ≤ editDistance t' u + 1) :
      ∀ u, editDistance (before ++ t) u ≤ editDistance (before ++ t') u + 1 := by
    induction before with
    | nil => exact h
    | cons x before ih => exact editDistance_cons_le_cons ih x
  cases h with
  | insertion before after c => exact hbehind before (editDistance_le_cons c after) u
  | deletion before after c => exact hbehind before (editDistance_cons_le c after) u
  | substitution before after c d => exact hbehind before (editDistance_substitute_le c d after) u

theorem Edits.editDistance_le {n : Nat} {t u : Text} (h : Edits n t u) : editDistance t u ≤ n := by
  induction h with
  | refl t => exact Nat.le_of_eq (editDistance_self t)
  | step hedit _ ih => exact Nat.le_trans (hedit.editDistance_le _) (Nat.succ_le_succ ih)

theorem isDistance_editDistance (t u : Text) : IsDistance (editDistance t u) t u :=
  ⟨edits_editDistance t u, fun _ h => h.editDistance_le⟩

theorem isDistance_iff {n : Nat} {t u : Text} : IsDistance n t u ↔ editDistance t u = n := by
  constructor
  · intro h
    exact Nat.le_antisymm h.edits.editDistance_le (h.least _ (edits_editDistance t u))
  · intro h
    exact h ▸ isDistance_editDistance t u

end Text
end Placeholders
