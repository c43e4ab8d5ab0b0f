import Placeholders.Proofs.Placeholder.Writing
import Placeholders.Proofs.Registry.Registration
import Placeholders.Proofs.Text.EditDistance
import Placeholders.Registry.Suggestion

/-!
What is suggested for a name: the registered names that are few edits away, the nearest first and
equally near ones in the order of names, and how a suggestion is written.
-/

namespace Placeholders

/-- Some edits away, but no more than a name of this size allows. -/
def Near (name other : Text) : Prop :=
  ∃ d, Text.IsDistance d name other ∧ 1 ≤ d ∧ d ≤ if name.utf8.length ≤ 3 then 1 else 2

/-- Fewer edits away, or as many and earlier in the order of names. -/
def Nearer (name a b : Text) : Prop :=
  ∃ d e, Text.IsDistance d name a ∧ Text.IsDistance e name b ∧ (d < e ∨ d = e ∧ a < b)

section
variable {α : Type} (key : α → Nat) {l : List α}

theorem key_trans (a b c : α) (hab : decide (key a ≤ key b)) (hbc : decide (key b ≤ key c)) :
    decide (key a ≤ key c) :=
  decide_eq_true (Nat.le_trans (of_decide_eq_true hab) (of_decide_eq_true hbc))

theorem key_total (a b : α) : decide (key a ≤ key b) || decide (key b ≤ key a) := by
  rw [Bool.or_eq_true, decide_eq_true_eq, decide_eq_true_eq]
  exact Nat.le_total (key a) (key b)

theorem pairwise_mergeSort_key (l : List α) :
    (l.mergeSort fun a b => key a ≤ key b).Pairwise fun a b => key a ≤ key b :=
  (List.pairwise_mergeSort (key_trans key) (key_total key) l).imp of_decide_eq_true

/-- Those of one key stay in their order. -/
theorem filter_mergeSort_key (l : List α) (k : Nat) :
    (l.mergeSort fun a b => key a ≤ key b).filter (key · = k) = l.filter (key · = k) := by
  have hkeys : (l.filter (key · = k)).Pairwise fun a b => decide (key a ≤ key b) := by
    have hkey (x : α) (hx : x ∈ l.filter (key · = k)) : key x = k :=
      of_decide_eq_true (List.mem_filter.mp hx).2
    refine List.pairwise_of_forall_mem_list fun a ha b hb => decide_eq_true ?_
    rw [hkey a ha, hkey b hb]
  have hsub := List.sublist_mergeSort (key_trans key) (key_total key) hkeys List.filter_sublist
  have hfilter := hsub.filter (key · = k)
  rw [List.filter_filter] at hfilter
  simp only [Bool.and_self] at hfilter
  exact (hfilter.eq_of_length ((List.mergeSort_perm l _).filter _).length_eq.symm).symm

/-- Sorted by a key, what was in order before is in order among those of one key. -/
theorem pairwise_mergeSort_of_pairwise {r : α → α → Prop} (h : l.Pairwise r) :
    (l.mergeSort fun a b => key a ≤ key b).Pairwise
      fun a b => key a < key b ∨ key a = key b ∧ r a b := by
  rw [List.pairwise_iff_forall_sublist]
  intro a b hab
  have hle := (pairwise_mergeSort_key key l).forall_sublist hab
  cases Nat.lt_or_eq_of_le hle with
  | inl hlt => exact .inl hlt
  | inr heq =>
      refine .inr ⟨heq, h.forall_sublist ?_⟩
      have hfilter := hab.filter (key · = key b)
      rw [filter_mergeSort_key] at hfilter
      simp only [heq, decide_true, List.filter_cons_of_pos, List.filter_nil] at hfilter
      exact hfilter.trans List.filter_sublist

end

theorem Text.length_utf8 (t : Text) : t.utf8.length = t.byteSize := by
  induction t with
  | nil => rfl
  | cons c t ih =>
      rw [utf8] at ih ⊢
      rw [List.flatMap_cons, List.length_append, String.length_utf8EncodeChar, ih, byteSize]

theorem near_iff {name other : Text} : Near name other ↔
    0 < name.editDistance other ∧ name.editDistance other ≤ editLimit name := by
  unfold Near editLimit
  rw [Text.length_utf8]
  constructor
  · rintro ⟨d, hd, hpos, hle⟩
    rw [Text.isDistance_iff.mp hd]
    exact ⟨hpos, hle⟩
  · rintro ⟨hpos, hle⟩
    exact ⟨_, Text.isDistance_editDistance name other, hpos, hle⟩

theorem nearer_iff {name a b : Text} : Nearer name a b ↔
    name.editDistance a < name.editDistance b ∨
      name.editDistance a = name.editDistance b ∧ a < b := by
  constructor
  · rintro ⟨d, e, hd, he, hlt⟩
    rwa [Text.isDistance_iff.mp hd, Text.isDistance_iff.mp he]
  · intro hlt
    exact ⟨_, _, Text.isDistance_editDistance name a, Text.isDistance_editDistance name b, hlt⟩

theorem mem_nearNames_iff {name : Text} {names : List Text} {d : Nat} {other : Text} :
    (d, other) ∈ nearNames name names ↔
      other ∈ names ∧ d = name.editDistance other ∧ Near name other := by
  simp only [nearNames, List.mem_filter, List.mem_map, Prod.mk.injEq, Bool.and_eq_true,
    decide_eq_true_eq, near_iff]
  grind

theorem pairwise_nearNames {names : List Text} (name : Text) (h : names.Pairwise (· < ·)) :
    (nearNames name names).Pairwise fun a b => a.2 < b.2 := by
  have hpairs : (names.map fun other => (name.editDistance other, other)).Pairwise
      fun a b => a.2 < b.2 := List.pairwise_map.mpr h
  exact hpairs.filter _

/-- The near ones of some names, the nearest first. -/
def rankedNames (name : Text) (names : List Text) : List Text :=
  ((nearNames name names).mergeSort fun a b => a.1 ≤ b.1).map Prod.snd

theorem suggestions_eq_take {m : Type → Type} (registry : Registry m) (name : Text) :
    registry.suggestions name = (rankedNames name registry.names).take 3 :=
  List.map_take

theorem mem_rankedNames_iff {name : Text} {names : List Text} {other : Text} :
    other ∈ rankedNames name names ↔ other ∈ names ∧ Near name other := by
  simp only [rankedNames, List.mem_map, List.mem_mergeSort, Prod.exists, exists_eq_right,
    mem_nearNames_iff]
  grind

theorem pairwise_rankedNames {names : List Text} (name : Text) (h : names.Pairwise (· < ·)) :
    (rankedNames name names).Pairwise (Nearer name) := by
  rw [rankedNames, List.pairwise_map]
  refine (pairwise_mergeSort_of_pairwise Prod.fst (pairwise_nearNames name h)).imp_of_mem ?_
  intro a b ha hb hlt
  obtain ⟨_, ha, _⟩ := mem_nearNames_iff.mp (List.mem_mergeSort.mp ha)
  obtain ⟨_, hb, _⟩ := mem_nearNames_iff.mp (List.mem_mergeSort.mp hb)
  rw [nearer_iff, ← ha, ← hb]
  exact hlt

theorem lookupName_dottedName {name : Text} (h : '.' ∉ name) :
    lookupName (dottedName name) = name := by
  rw [lookupName, dottedName, List.map_map]
  refine (List.map_congr_left fun c hc => ?_).trans (List.map_id name)
  have hdot : c ≠ '.' := fun heq => h (heq ▸ hc)
  by_cases hunderscore : c = '_'
  · simp [hunderscore]
  · simp [hunderscore, hdot]

theorem grammaticalName_dottedName {name : Text} (hne : name ≠ []) (h : ∀ c ∈ name, isNameChar c) :
    Placeholder.GrammaticalName (dottedName name) := by
  refine ⟨mt List.map_eq_nil_iff.mp hne, fun c hc => ?_⟩
  obtain ⟨d, hd, rfl⟩ := List.mem_map.mp hc
  split
  · rfl
  · exact h d hd

/-- A name among others stands between its quotes. -/
theorem exists_offer?_of_mem {names : List Text} {name : Text} (h : name ∈ names) :
    ∃ before after,
      offer? names = some (before ++ '\'' :: dottedName name ++ '\'' :: after) := by
  have hquoted : ('\'' :: dottedName name ++ ['\'']) ∈
      names.map fun name => '\'' :: dottedName name ++ ['\''] := List.mem_map.mpr ⟨name, h, rfl⟩
  obtain ⟨before, after, hjoin⟩ := @Text.infix_join_of_mem " or ".toList _ _ hquoted
  have hoffer : offer? names = some ("did you mean ".toList ++
      (before ++ ('\'' :: dottedName name ++ ['\'']) ++ after) ++ ['?']) := by
    rw [hjoin, offer?, if_neg (List.ne_nil_of_mem h)]
  refine ⟨"did you mean ".toList ++ before, after ++ ['?'], ?_⟩
  rw [hoffer]
  simp only [List.append_assoc, List.cons_append, List.nil_append]

namespace Registry

/-- What is suggested are the first three of the near registered names, in the order of how near
they are and then in the order of names. A near name is left out only for three that are nearer.
And a suggestion of letters, digits and underscores is offered in a form that names it: a
placeholder written with that name calls the registered function. -/
theorem suggestions_exact {m : Type → Type} [Monad m] [MonadClock m] {start : Registry m}
    (hstart : start = empty ∨ start = standard) (calls : List (Text × Handler m)) (name : Text) :
    let registry := start.registerAll calls
    (∃ ranked : List Text, registry.suggestions name = ranked.take 3 ∧
      ranked.Pairwise (Nearer name) ∧
      ∀ other, other ∈ ranked ↔ other ∈ registry.names ∧ Near name other) ∧
    (∀ other ∈ registry.names, Near name other → other ∉ registry.suggestions name →
      (registry.suggestions name).length = 3 ∧
      ∀ s ∈ registry.suggestions name, Nearer name s other) ∧
    ∀ s ∈ registry.suggestions name, (∀ c ∈ s, isNameChar c ∧ c ≠ '.') →
      (∃ before after, offer? (registry.suggestions name) =
        some (before ++ '\'' :: dottedName s ++ '\'' :: after)) ∧
      Placeholder.GrammaticalName (dottedName s) ∧ lookupName (dottedName s) = s ∧
      ∀ indexes arguments entropy, Writable arguments →
        Invocation.parse (writeCall (dottedName s) indexes arguments entropy) =
          .ok ⟨writeCall (dottedName s) indexes arguments entropy, s, indexes, arguments,
            entropy.getD ⟨true, 0⟩⟩ := by
  intro registry
  have hformed : registry.WellFormed := by
    cases hstart with
    | inl h =>
        subst h
        exact wellFormed_empty.registerAll calls
    | inr h =>
        subst h
        exact wellFormed_standard.registerAll calls
  have hranked := pairwise_rankedNames name hformed.increasing
  rw [suggestions_eq_take]
  refine ⟨⟨_, rfl, hranked, fun other => mem_rankedNames_iff⟩, ?_, ?_⟩
  · intro other hother hnear hleft
    have hmem := mem_rankedNames_iff.mpr ⟨hother, hnear⟩
    rw [← List.take_append_drop 3 (rankedNames name registry.names)] at hmem hranked
    have hdrop := (List.mem_append.mp hmem).resolve_left hleft
    refine ⟨?_, fun s hs => (List.pairwise_append.mp hranked).2.2 s hs other hdrop⟩
    have hlength := List.length_pos_of_mem hdrop
    rw [List.length_drop] at hlength
    rw [List.length_take]
    omega
  · intro s hs hchars
    obtain ⟨hregistered, _⟩ := mem_rankedNames_iff.mp (List.mem_of_mem_take hs)
    have hname := grammaticalName_dottedName (hformed.trimmed s hregistered).2
      fun c hc => (hchars c hc).1
    have hlookup := lookupName_dottedName fun hdot => (hchars '.' hdot).2 rfl
    refine ⟨exists_offer?_of_mem hs, hname, hlookup, ?_⟩
    intro indexes arguments entropy harguments
    have hparse := Invocation.parse_of_writesArguments hname harguments (.plain indexes)
      (.plain arguments) entropy
    rwa [Placeholder.written_spelled, hlookup] at hparse

/-- A letter is missing from the name of a standard function. -/
theorem suggestions_exact_of_misspelt :
    let registry : Registry (ReaderM Instant) := standard.registerAll []
    let name := "Fenix_ControledUniqueId".toList
    registry.suggestions name = ["Fenix_ControlledUniqueId".toList] ∧
    Near name "Fenix_ControlledUniqueId".toList ∧
    Invocation.parse "{{Fenix.ControlledUniqueId[7](%n%)}}".toList =
      .ok ⟨"{{Fenix.ControlledUniqueId[7](%n%)}}".toList, "Fenix_ControlledUniqueId".toList, [7],
        ["%n%".toList], ⟨true, 0⟩⟩ := by
  intro registry name
  have hnear : nearNames name registry.names = [(1, "Fenix_ControlledUniqueId".toList)] := by
    decide +kernel
  have hsuggestions : registry.suggestions name = ["Fenix_ControlledUniqueId".toList] := by
    rw [suggestions, hnear, List.mergeSort_singleton]
    rfl
  obtain ⟨⟨ranked, htake, _, hranked⟩, _, hwritten⟩ :=
    suggestions_exact (m := ReaderM Instant) (.inr rfl) [] name
  have hmem : "Fenix_ControlledUniqueId".toList ∈ registry.suggestions name :=
    hsuggestions ▸ List.mem_singleton_self _
  have hall : "Fenix_ControlledUniqueId".toList.all fun c => isNameChar c && c != '.' := by
    decide +kernel
  have hchars : ∀ c ∈ "Fenix_ControlledUniqueId".toList, isNameChar c ∧ c ≠ '.' := by
    intro c hc
    simpa using List.all_eq_true.mp hall c hc
  obtain ⟨_, _, _, hparse⟩ := hwritten _ hmem hchars
  have hargument : Writable ["%n%".toList] :=
    ⟨by decide, by decide, by decide, by decide, Text.cutAt_eq_none_iff.mp (by decide)⟩
  refine ⟨hsuggestions, ?_, hparse [7] ["%n%".toList] none hargument⟩
  rw [htake] at hmem
  exact ((hranked _).mp (List.mem_of_mem_take hmem)).2

end Registry
end Placeholders
