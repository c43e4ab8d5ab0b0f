import Placeholders.Text.Pieces

/-!
Where a text is divided: at separators between joined pieces, at the end of a run of characters of
one class, and around tokens.
-/

namespace Placeholders
namespace Text

theorem splitOn_append (separator : Char) {t : Text} (h : separator ∉ t) (rest : Text) :
    splitOn separator (t ++ separator :: rest) = t :: splitOn separator rest := by
  induction t with
  | nil => simp [splitOn]
  | cons c t ih =>
      obtain ⟨hc, ht⟩ : separator ≠ c ∧ separator ∉ t := by simpa using h
      simp [splitOn, Ne.symm hc, ih ht]

theorem notMem_of_mem_splitOn {separator : Char} {t piece : Text}
    (h : piece ∈ splitOn separator t) : separator ∉ piece := by
  induction t generalizing piece with
  | nil =>
      rw [List.mem_singleton.mp h]
      exact List.not_mem_nil
  | cons c t ih =>
      obtain ⟨first, pieces, hsplit⟩ := List.exists_cons_of_ne_nil (splitOn_ne_nil separator t)
      rw [hsplit] at ih
      simp only [splitOn, hsplit] at h
      split at h
      · cases List.mem_cons.mp h with
        | inl hnil =>
            rw [hnil]
            exact List.not_mem_nil
        | inr hmem => exact ih hmem
      · next hc =>
        cases List.mem_cons.mp h with
        | inl hfirst =>
            rw [hfirst, List.mem_cons, not_or]
            exact ⟨Ne.symm hc, ih List.mem_cons_self⟩
        | inr hmem => exact ih (List.mem_cons_of_mem first hmem)

theorem splitOn_of_notMem (separator : Char) {t : Text} (h : separator ∉ t) :
    splitOn separator t = [t] := by
  induction t with
  | nil => rfl
  | cons c t ih =>
      obtain ⟨hc, ht⟩ : separator ≠ c ∧ separator ∉ t := by simpa using h
      simp [splitOn, Ne.symm hc, ih ht]

theorem splitOn_join (separator : Char) {ts : List Text} (hne : ts ≠ [])
    (h : ∀ t ∈ ts, separator ∉ t) :
    splitOn separator (join [separator] ts) = ts := by
  induction ts with
  | nil => contradiction
  | cons t ts ih =>
      obtain ⟨ht, hts⟩ := List.forall_mem_cons.mp h
      by_cases hnil : ts = []
      · subst hnil
        exact splitOn_of_notMem separator ht
      · rw [join_cons _ _ hnil, List.append_assoc, List.singleton_append,
          splitOn_append separator ht, ih hnil hts]

theorem notMem_join {c : Char} {separator : Text} {ts : List Text} (hs : c ∉ separator)
    (h : ∀ t ∈ ts, c ∉ t) : c ∉ join separator ts := by
  induction ts with
  | nil => exact List.not_mem_nil
  | cons t ts ih =>
      obtain ⟨ht, hts⟩ := List.forall_mem_cons.mp h
      by_cases hnil : ts = []
      · subst hnil
        exact ht
      · rw [join_cons _ _ hnil]
        simp [ht, hs, ih hts]

theorem takeWhile_run {p : Char → Bool} {run : Text} {c : Char} (h : ∀ d ∈ run, p d)
    (hc : p c = false) (rest : Text) : (run ++ c :: rest).takeWhile p = run := by
  rw [List.takeWhile_append_of_pos h, List.takeWhile_cons_of_neg (by simp [hc]), List.append_nil]

theorem dropWhile_run {p : Char → Bool} {run : Text} {c : Char} (h : ∀ d ∈ run, p d)
    (hc : p c = false) (rest : Text) : (run ++ c :: rest).dropWhile p = c :: rest := by
  rw [List.dropWhile_append_of_pos h, List.dropWhile_cons_of_neg (by simp [hc])]

theorem infix_append_cons {mark before after : Text} {c : Char} (hc : c ∉ mark)
    (h : mark <:+: before ++ c :: after) : mark <:+: before ∨ mark <:+: after := by
  have hcons {t : Text} (ht : t <+: c :: after) (hmark : t <:+: mark) : t = [] := by
    cases t with
    | nil => rfl
    | cons d t =>
        obtain ⟨rfl, _⟩ := List.cons_prefix_cons.mp ht
        exact absurd (hmark.subset (List.mem_cons_self ..)) hc
  cases List.infix_append_iff.mp h with
  | inl hbefore => exact .inl hbefore
  | inr hrest =>
      cases hrest with
      | inl hafter =>
          cases List.infix_cons_iff.mp hafter with
          | inl hprefix =>
              rw [hcons hprefix (List.infix_refl mark)]
              exact .inr (List.nil_infix)
          | inr hafter => exact .inr hafter
      | inr hacross =>
          obtain ⟨front, back, rfl, hfront, hback⟩ := hacross
          rw [hcons hback (List.suffix_append ..).isInfix, List.append_nil]
          exact .inl hfront.isInfix

theorem infix_of_infix_surrounded {mark before t after : Text} (hbefore : ∀ c ∈ before, c ∉ mark)
    (hafter : ∀ c ∈ after, c ∉ mark) (h : mark <:+: before ++ t ++ after) : mark <:+: t := by
  induction before with
  | nil =>
      cases after with
      | nil => simpa using h
      | cons c after =>
          cases infix_append_cons (hafter c (List.mem_cons_self ..)) h with
          | inl ht => exact ht
          | inr hrest =>
              cases mark with
              | nil => exact List.nil_infix
              | cons d mark =>
                  have hd : d ∈ after := hrest.subset (List.mem_cons_self ..)
                  exact absurd (List.mem_cons_self ..) (hafter d (List.mem_cons_of_mem _ hd))
  | cons c before ih =>
      obtain ⟨hc, hbefore⟩ := List.forall_mem_cons.mp hbefore
      rw [List.append_assoc, List.cons_append, ← List.append_assoc] at h
      cases @infix_append_cons mark [] _ c hc h with
      | inl hnil =>
          rw [List.infix_nil.mp hnil]
          exact List.nil_infix
      | inr hrest => exact ih hbefore hrest

theorem exists_infix_of_infix_join {mark : Text} {separator : Char} (hmark : mark ≠ [])
    (hs : separator ∉ mark) {ts : List Text} (h : mark <:+: join [separator] ts) :
    ∃ t ∈ ts, mark <:+: t := by
  induction ts with
  | nil => exact absurd (List.infix_nil.mp h) hmark
  | cons t ts ih =>
      by_cases hnil : ts = []
      · subst hnil
        exact ⟨t, List.mem_cons_self .., h⟩
      · rw [join_cons _ _ hnil, List.append_assoc, List.singleton_append] at h
        cases infix_append_cons hs h with
        | inl ht => exact ⟨t, List.mem_cons_self .., ht⟩
        | inr hts =>
            obtain ⟨u, hu, hinfix⟩ := ih hts
            exact ⟨u, List.mem_cons_of_mem _ hu, hinfix⟩

theorem infix_join_of_mem {separator : Text} {t : Text} {ts : List Text} (h : t ∈ ts) :
    t <:+: join separator ts := by
  induction ts with
  | nil => contradiction
  | cons u ts ih =>
      by_cases hnil : ts = []
      · subst hnil
        rw [List.mem_singleton.mp h]
        exact List.infix_refl u
      · rw [join_cons _ _ hnil]
        cases List.mem_cons.mp h with
        | inl heq =>
            subst heq
            exact ⟨[], separator ++ join separator ts, by simp⟩
        | inr hts => exact (ih hts).trans (List.suffix_append ..).isInfix

section
variable {α : Type} {recognise : Text → Option α} {written : α → Text}

theorem pieces_token {a : α} {rest : Text} (h : recognise (written a ++ rest) = some a)
    (hne : written a ≠ []) :
    pieces recognise written (written a ++ rest) = .token a :: pieces recognise written rest := by
  obtain ⟨c, w, hw⟩ := List.exists_cons_of_ne_nil hne
  have hdrop : (w ++ rest).drop ((written a).length - 1) = rest := by simp [hw]
  have hafter := piecesAfter_eq_drop recognise written ((written a).length - 1) (w ++ rest)
  rw [hdrop] at hafter
  rw [hw, List.cons_append] at h
  rw [← hafter, hw, List.cons_append]
  simp only [pieces, piecesAfter, h, hw]

theorem pieces_char {c : Char} {t : Text} (h : recognise (c :: t) = none) :
    pieces recognise written (c :: t) = .char c :: pieces recognise written t := by
  simp only [pieces, piecesAfter, h]

end

section
variable {token : Text} (value : Text) {t : Text}

theorem replace_token (hne : token ≠ []) (rest : Text) :
    replace token value (token ++ rest) = value ++ replace token value rest := by
  have hfound : token.isPrefixOf? (token ++ rest) = some rest :=
    isPrefixOf?_eq_some_iff.mpr rfl
  have hrecognise : (token.isPrefixOf? (token ++ rest)).map (fun _ => ()) = some () := by
    rw [hfound, Option.map_some]
  rw [replace, substitute, pieces_token hrecognise hne, List.flatMap_cons]
  rfl

theorem replace_char {c : Char} (h : ¬ token <+: c :: t) :
    replace token value (c :: t) = c :: replace token value t := by
  have hnone : (token.isPrefixOf? (c :: t)).map (fun _ => ()) = none := by
    rw [Option.map_eq_none_iff, Option.eq_none_iff_forall_ne_some]
    intro rest hrest
    exact h ⟨rest, (isPrefixOf?_eq_some_iff.mp hrest).symm⟩
  rw [replace, substitute, pieces_char hnone, List.flatMap_cons]
  rfl

/-- Characters stay as long as no token begins at them. -/
theorem replace_append {kept : Text} (h : ∀ u, u ≠ [] → u <:+ kept → ¬ token <+: u ++ t) :
    replace token value (kept ++ t) = kept ++ replace token value t := by
  induction kept with
  | nil => rfl
  | cons c kept ih =>
      have hrest := ih fun u hne hu => h u hne (hu.trans (List.suffix_cons c kept))
      have hfirst := h (c :: kept) (List.cons_ne_nil _ _) (List.suffix_refl _)
      calc replace token value (c :: (kept ++ t))
        _ = c :: replace token value (kept ++ t) := replace_char value hfirst
        _ = c :: kept ++ replace token value t := by rw [hrest, List.cons_append]

end

end Text
end Placeholders
