import Placeholders.Proofs.Placeholder.Grammar

/-!
Reading from the front of a text answers with the placeholder whose arguments are shortest, and with
nothing only where no placeholder begins. All of a placeholder but its arguments and what follows
them is forced by the text.
-/

namespace Placeholders
namespace Placeholder

/-- Text on one line, a closing, and `rest`. -/
structure ArgumentsEnd (t arguments : Text) (entropy : Option EntropyClause) (rest : Text) :
    Prop where
  line : '\n' ∉ arguments
  clause : GrammaticalEntropy entropy
  text : t = arguments ++ (writtenClosing entropy ++ rest)

theorem ArgumentsEnd.cons {t arguments rest : Text} {entropy : Option EntropyClause} {c : Char}
    (hc : c ≠ '\n') (h : ArgumentsEnd t arguments entropy rest) :
    ArgumentsEnd (c :: t) (c :: arguments) entropy rest where
  line hmem := by
    cases List.mem_cons.mp hmem with
    | inl heq => exact hc heq.symm
    | inr hmem => exact h.line hmem
  clause := h.clause
  text := by simp [h.text]

theorem ArgumentsEnd.tail {t arguments rest : Text} {entropy : Option EntropyClause} {c : Char}
    (hc : readClosing? (c :: t) = none) (h : ArgumentsEnd (c :: t) arguments entropy rest) :
    ∃ tail, arguments = c :: tail ∧ c ≠ '\n' ∧ ArgumentsEnd t tail entropy rest := by
  cases arguments with
  | nil =>
      have hread := readClosing?_eq_some_iff.mpr ⟨h.clause, h.text⟩
      rw [hc] at hread
      contradiction
  | cons d tail =>
      obtain ⟨rfl, ht⟩ := List.cons.inj h.text
      refine ⟨tail, rfl, ?_, fun hmem => h.line (List.mem_cons_of_mem _ hmem), h.clause, ht⟩
      intro heq
      subst heq
      exact h.line (List.mem_cons_self ..)

theorem ArgumentsEnd.unique {t a b r s : Text} {e f : Option EntropyClause}
    (h : ArgumentsEnd t a e r) (h' : ArgumentsEnd t b f s) (hlen : a.length = b.length) :
    a = b ∧ e = f ∧ r = s := by
  obtain ⟨rfl, hclosing⟩ := List.append_inj (h.text.symm.trans h'.text) hlen
  have hread := readClosing?_written h.clause r
  rw [hclosing, readClosing?_written h'.clause s] at hread
  simp only [Option.some.injEq, Prod.mk.injEq] at hread
  exact ⟨rfl, hread.1.symm, hread.2.symm⟩

theorem argumentsEnd_of_readArguments? {t arguments rest : Text} {entropy : Option EntropyClause}
    (h : readArguments? t = some (arguments, entropy, rest)) :
    ArgumentsEnd t arguments entropy rest := by
  induction t generalizing arguments with
  | nil => contradiction
  | cons c t ih =>
      simp only [readArguments?] at h
      split at h
      · next hread =>
        simp only [Option.some.injEq, Prod.mk.injEq] at h
        obtain ⟨rfl, rfl, rfl⟩ := h
        obtain ⟨hentropy, ht⟩ := readClosing?_eq_some_iff.mp hread
        exact ⟨List.not_mem_nil, hentropy, ht⟩
      · split at h
        · contradiction
        · next hc =>
          simp only [Option.map_eq_some_iff, Prod.exists, Prod.mk.injEq] at h
          obtain ⟨a, e, r, hr, rfl, rfl, rfl⟩ := h
          exact (ih hr).cons hc

/-- Wherever the arguments could end, they are read, and end there or earlier. -/
theorem readArguments?_of_argumentsEnd {t a r : Text} {e : Option EntropyClause}
    (h : ArgumentsEnd t a e r) :
    ∃ arguments entropy rest, readArguments? t = some (arguments, entropy, rest) ∧
      arguments.length ≤ a.length := by
  induction t generalizing a with
  | nil => simpa [writtenClosing] using h.text
  | cons c t ih =>
      simp only [readArguments?]
      split
      · next entropy rest _ => exact ⟨[], entropy, rest, rfl, Nat.zero_le _⟩
      · next hread =>
        obtain ⟨tail, rfl, hc, htail⟩ := h.tail hread
        obtain ⟨arguments, entropy, rest, hr, hle⟩ := ih htail
        exact ⟨c :: arguments, entropy, rest, by simp [hc, hr], Nat.succ_le_succ hle⟩

theorem readArguments?_eq_some_iff {t arguments rest : Text} {entropy : Option EntropyClause} :
    readArguments? t = some (arguments, entropy, rest) ↔ ArgumentsEnd t arguments entropy rest ∧
      ∀ a e r, ArgumentsEnd t a e r → arguments.length ≤ a.length := by
  constructor
  · intro h
    refine ⟨argumentsEnd_of_readArguments? h, fun a e r hend => ?_⟩
    obtain ⟨a', e', r', hread, hle⟩ := readArguments?_of_argumentsEnd hend
    obtain ⟨rfl, _⟩ : arguments = a' ∧ _ := by simpa using h.symm.trans hread
    exact hle
  · intro h
    obtain ⟨hend, hleast⟩ := h
    obtain ⟨a, e, r, hread, hle⟩ := readArguments?_of_argumentsEnd hend
    have hend' := argumentsEnd_of_readArguments? hread
    obtain ⟨rfl, rfl, rfl⟩ := hend.unique hend' (Nat.le_antisymm (hleast a e r hend') hle)
    exact hread

def writtenHead (name : Text) (indexes : Option (List Text)) : Text :=
  '{' :: '{' :: name ++ writtenIndexes indexes ++ ['(']

theorem written_eq_head (p : Placeholder) :
    p.written = writtenHead p.name p.indexes ++ (p.arguments ++ writtenClosing p.entropy) := by
  simp [written_eq, writtenHead]

/-- Neither a bracket nor a parenthesis belongs to a name, so the name is all of its run. -/
theorem name_run {name : Text} (h : GrammaticalName name) (indexes : Option (List Text))
    (u : Text) :
    (name ++ (writtenIndexes indexes ++ '(' :: u)).takeWhile isNameChar = name ∧
      (name ++ (writtenIndexes indexes ++ '(' :: u)).dropWhile isNameChar =
        writtenIndexes indexes ++ '(' :: u := by
  obtain ⟨c, rest, hstop, hc⟩ : ∃ c rest, writtenIndexes indexes ++ '(' :: u = c :: rest ∧
      isNameChar c = false := by
    cases indexes with
    | none => exact ⟨'(', u, rfl, by decide⟩
    | some elements => exact ⟨'[', _, rfl, by decide⟩
  rw [hstop]
  exact ⟨Text.takeWhile_run h.2 hc rest, Text.dropWhile_run h.2 hc rest⟩

theorem read?_head {name : Text} {indexes : Option (List Text)} (hname : GrammaticalName name)
    (hindexes : GrammaticalIndexes indexes) (u : Text) :
    read? (writtenHead name indexes ++ u) = (readArguments? u).map fun (arguments, entropy, rest) =>
      (⟨name, indexes, arguments, entropy⟩, rest) := by
  obtain ⟨htake, hdrop⟩ := name_run hname indexes u
  have ht : writtenHead name indexes ++ u =
      '{' :: '{' :: (name ++ (writtenIndexes indexes ++ '(' :: u)) := by simp [writtenHead]
  rw [ht]
  simp only [read?, htake, hdrop, hname.1, if_false, readIndexes?_written hindexes,
    Option.bind_some]

theorem head_of_read? {t rest : Text} {p : Placeholder} (h : read? t = some (p, rest)) :
    GrammaticalName p.name ∧ GrammaticalIndexes p.indexes ∧
      ∃ u, t = writtenHead p.name p.indexes ++ u ∧
        readArguments? u = some (p.arguments, p.entropy, rest) := by
  have ht := read?_eq_some h
  have hwritten := written_eq_head p
  unfold read? at h
  split at h
  · simp only at h
    split at h
    · contradiction
    · next hne =>
      simp only [Option.bind_eq_some_iff, Prod.exists] at h
      obtain ⟨indexes, r, hi, h⟩ := h
      split at h
      · simp only [Option.map_eq_some_iff, Prod.exists, Prod.mk.injEq] at h
        obtain ⟨arguments, entropy, r, ha, rfl, rfl⟩ := h
        refine ⟨⟨hne, fun c hc => List.mem_takeWhile_imp hc⟩,
          grammaticalIndexes_of_readIndexes? hi, _, ?_, ha⟩
        rw [ht, hwritten, (argumentsEnd_of_readArguments? ha).text]
        simp only [List.append_assoc]
      · contradiction
  · contradiction

/-- Two ways to write one text agree up to the arguments. -/
theorem head_unique {name name' u u' : Text} {indexes indexes' : Option (List Text)}
    (hname : GrammaticalName name) (hname' : GrammaticalName name')
    (hindexes : GrammaticalIndexes indexes) (hindexes' : GrammaticalIndexes indexes')
    (h : writtenHead name indexes ++ u = writtenHead name' indexes' ++ u') :
    name = name' ∧ indexes = indexes' ∧ u = u' := by
  have hrun : name ++ (writtenIndexes indexes ++ '(' :: u) =
      name' ++ (writtenIndexes indexes' ++ '(' :: u') := by simpa [writtenHead] using h
  obtain ⟨htake, hdrop⟩ := name_run hname indexes u
  obtain ⟨htake', hdrop'⟩ := name_run hname' indexes' u'
  rw [hrun, htake'] at htake
  rw [hrun, hdrop'] at hdrop
  have hread := readIndexes?_written hindexes u
  rw [← hdrop, readIndexes?_written hindexes' u'] at hread
  simp only [Option.some.injEq, Prod.mk.injEq, List.cons.injEq, true_and] at hread
  exact ⟨htake.symm, hread.1.symm, hread.2.symm⟩

theorem opens_iff {p : Placeholder} {t rest : Text} :
    p.Opens t rest ↔ GrammaticalName p.name ∧ GrammaticalIndexes p.indexes ∧
      ∃ u, t = writtenHead p.name p.indexes ++ u ∧
        ArgumentsEnd u p.arguments p.entropy rest := by
  constructor
  · intro h
    obtain ⟨hp, ht⟩ := h
    refine ⟨hp.name, hp.indexes, p.arguments ++ (writtenClosing p.entropy ++ rest), ?_,
      hp.arguments, hp.entropy, rfl⟩
    rw [ht, written_eq_head]
    simp only [List.append_assoc]
  · intro h
    obtain ⟨hname, hindexes, u, rfl, hend⟩ := h
    refine ⟨⟨hname, hindexes, hend.line, hend.clause⟩, ?_⟩
    rw [written_eq_head, hend.text]
    simp only [List.append_assoc]

theorem name_of_opens {p : Placeholder} {t rest : Text} (h : p.Opens t rest) :
    p.name = (t.drop 2).takeWhile isNameChar := by
  obtain ⟨hname, _, u, rfl, _⟩ := opens_iff.mp h
  have ht : (writtenHead p.name p.indexes ++ u).drop 2 =
      p.name ++ (writtenIndexes p.indexes ++ '(' :: u) := by simp [writtenHead]
  rw [ht, (name_run hname p.indexes u).1]

/-- Reading is exact: of all placeholders that open a text it finds the one with the shortest
arguments. -/
theorem read?_eq_some_iff {t rest : Text} {p : Placeholder} :
    read? t = some (p, rest) ↔
      p.Opens t rest ∧
        ∀ (q : Placeholder) (r : Text), q.Opens t r → p.arguments.length ≤ q.arguments.length := by
  constructor
  · intro h
    obtain ⟨hname, hindexes, u, ht, hread⟩ := head_of_read? h
    obtain ⟨hend, hleast⟩ := readArguments?_eq_some_iff.mp hread
    refine ⟨opens_iff.mpr ⟨hname, hindexes, u, ht, hend⟩, ?_⟩
    intro q r hq
    obtain ⟨hname', hindexes', u', ht', hend'⟩ := opens_iff.mp hq
    obtain ⟨_, _, rfl⟩ := head_unique hname hname' hindexes hindexes' (ht.symm.trans ht')
    exact hleast _ _ _ hend'
  · intro h
    obtain ⟨hp, hleast⟩ := h
    obtain ⟨hname, hindexes, u, rfl, hend⟩ := opens_iff.mp hp
    have hread : readArguments? u = some (p.arguments, p.entropy, rest) := by
      refine readArguments?_eq_some_iff.mpr ⟨hend, fun a e r hend' => ?_⟩
      exact hleast ⟨p.name, p.indexes, a, e⟩ r (opens_iff.mpr ⟨hname, hindexes, u, rfl, hend'⟩)
    rw [read?_head hname hindexes, hread]
    rfl

theorem exists_read?_of_opens {t rest : Text} {p : Placeholder} (h : p.Opens t rest) :
    ∃ q r, read? t = some (q, r) := by
  obtain ⟨hname, hindexes, u, rfl, hend⟩ := opens_iff.mp h
  obtain ⟨a, e, r, hread, _⟩ := readArguments?_of_argumentsEnd hend
  exact ⟨⟨p.name, p.indexes, a, e⟩, r, by rw [read?_head hname hindexes, hread]; rfl⟩

theorem read?_eq_none_iff {t : Text} :
    read? t = none ↔ ∀ (p : Placeholder) (rest : Text), ¬ p.Opens t rest := by
  constructor
  · intro hnone p rest h
    obtain ⟨q, r, hread⟩ := exists_read?_of_opens h
    rw [hnone] at hread
    contradiction
  · intro h
    cases hread : read? t with
    | none => rfl
    | some found =>
        obtain ⟨p, rest⟩ := found
        exact absurd (read?_eq_some_iff.mp hread).1 (h p rest)

/-- Placeholders that open one text agree in name and indexes, and their arguments begin one
another; the arguments settle the rest. -/
theorem Opens.compare {t r s : Text} {p q : Placeholder} (hp : p.Opens t r) (hq : q.Opens t s)
    (hle : p.arguments.length ≤ q.arguments.length) :
    p.name = q.name ∧ p.indexes = q.indexes ∧ p.arguments <+: q.arguments ∧
      (p.arguments = q.arguments → p = q ∧ r = s) := by
  obtain ⟨hname, hindexes, u, rfl, hend⟩ := opens_iff.mp hp
  obtain ⟨hname', hindexes', u', heq, hend'⟩ := opens_iff.mp hq
  obtain ⟨hn, hi, rfl⟩ := head_unique hname hname' hindexes hindexes' heq
  refine ⟨hn, hi, List.prefix_of_prefix_length_le ⟨_, hend.text.symm⟩ ⟨_, hend'.text.symm⟩ hle, ?_⟩
  intro ha
  obtain ⟨_, he, hr⟩ := hend.unique hend' (congrArg List.length ha)
  refine ⟨?_, hr⟩
  cases p
  cases q
  simp_all

end Placeholder
end Placeholders
