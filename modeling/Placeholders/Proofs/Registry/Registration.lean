import Mathlib.Data.Char
import Mathlib.Data.List.Lex
import Placeholders.Proofs.Text.Trimming
import Placeholders.Registry

/-!
Registries over whole runs of registrations. The last handler of a name stays, names stand in strict
order, and a registration that is refused leaves no trace.
-/

namespace Placeholders.Registry

variable {m : Type → Type}

/-- The registry after a registration. One that is refused changes nothing. -/
def tryRegister (registry : Registry m) (call : Text × Handler m) : Registry m :=
  match registry.register call.1 call.2 with
  | .ok registry => registry
  | .error _ => registry

/-- The registry after some registrations, one after another. -/
def registerAll (registry : Registry m) (calls : List (Text × Handler m)) : Registry m :=
  calls.foldl tryRegister registry

/-- The handler of the last of some registrations under a name; none is under the empty name. -/
def lastHandler? (calls : List (Text × Handler m)) (name : Text) : Option (Handler m) :=
  (calls.reverse.find? fun call => call.1.trim = name ∧ name ≠ []).map Prod.snd

/-- What registrations keep. -/
structure WellFormed (registry : Registry m) : Prop where
  increasing : registry.names.Pairwise (· < ·)
  trimmed : ∀ name ∈ registry.names, name.trim = name ∧ name ≠ []

theorem lookup_map {α β : Type} (f : Text → α → β) (entries : List (Text × α)) (n : Text) :
    (entries.map fun (name, a) => (name, f name a)).lookup n = (entries.lookup n).map (f n) := by
  induction entries with
  | nil => rfl
  | cons entry entries ih =>
      obtain ⟨name, a⟩ := entry
      rw [List.map_cons, List.lookup_cons, List.lookup_cons, ih]
      by_cases h : n = name
      · rw [beq_iff_eq.mpr h, h, Option.map_some]
      · rw [beq_false_of_ne h]

section
variable (name : Text) (handler : Handler m) (entries : List (Text × Handler m))

theorem lookup_entry (n : Text) : ((name, handler) :: entries).lookup n =
    if n = name then some handler else entries.lookup n := by
  rw [List.lookup_cons]
  by_cases h : n = name
  · rw [if_pos h, beq_iff_eq.mpr h]
  · rw [if_neg h, beq_false_of_ne h]

theorem lookup_insertEntry (n : Text) : (insertEntry name handler entries).lookup n =
    if n = name then some handler else entries.lookup n := by
  induction entries with
  | nil => exact lookup_entry name handler [] n
  | cons entry entries ih =>
      obtain ⟨other, h⟩ := entry
      unfold insertEntry
      split
      · next hsame =>
        subst hsame
        rw [lookup_entry, lookup_entry]
        split <;> rfl
      · next hother =>
        split
        · rw [lookup_entry]
        · rw [lookup_entry, lookup_entry, ih]
          by_cases hn : n = name
          · rw [if_pos hn, if_pos hn, if_neg (hn ▸ hother)]
          · rw [if_neg hn, if_neg hn]

theorem isSome_lookup (n : Text) : (entries.lookup n).isSome ↔ n ∈ entries.map Prod.fst := by
  simp only [List.lookup_isSome_iff, List.mem_map, beq_iff_eq, @eq_comm Text n]

theorem mem_insertEntry {n : Text} : n ∈ (insertEntry name handler entries).map Prod.fst ↔
    n = name ∨ n ∈ entries.map Prod.fst := by
  rw [← isSome_lookup, ← isSome_lookup, lookup_insertEntry]
  by_cases hn : n = name
  · simp [hn]
  · simp [hn]

theorem insertEntry_increasing {entries : List (Text × Handler m)}
    (h : (entries.map Prod.fst).Pairwise (· < ·)) :
    ((insertEntry name handler entries).map Prod.fst).Pairwise (· < ·) := by
  induction entries with
  | nil => exact List.pairwise_singleton _ _
  | cons entry entries ih =>
      obtain ⟨other, g⟩ := entry
      obtain ⟨hfirst, hrest⟩ := List.pairwise_cons.mp h
      unfold insertEntry
      split
      · next hsame =>
        subst hsame
        exact .cons hfirst hrest
      · next hother =>
        split
        · next hlt =>
          refine .cons (fun n hn => ?_) h
          cases List.mem_cons.mp hn with
          | inl hn => exact hn ▸ hlt
          | inr hn => exact hlt.trans (hfirst n hn)
        · next hge =>
          refine .cons (fun n hn => ?_) (ih hrest)
          cases (mem_insertEntry name handler entries).mp hn with
          | inl hn => exact hn ▸ lt_of_le_of_ne (not_lt.mp hge) (Ne.symm hother)
          | inr hn => exact hfirst n hn

end

theorem insertEntry_comm {a b : Text} (h : a ≠ b) (f g : Handler m)
    (entries : List (Text × Handler m)) :
    insertEntry a f (insertEntry b g entries) = insertEntry b g (insertEntry a f entries) := by
  -- Both names are compared with the first entry, and with each other only if they meet there.
  induction entries with
  | nil => grind [insertEntry]
  | cons entry entries ih => grind [insertEntry]

/-- Entries under different names are found again, over those that were there before. -/
theorem lookup_foldl_insertEntry {calls : List (Text × Handler m)}
    (h : (calls.map Prod.fst).Nodup) (entries : List (Text × Handler m)) (n : Text) :
    (calls.foldl (fun entries (name, handler) => insertEntry name handler entries)
      entries).lookup n = (calls.lookup n).or (entries.lookup n) := by
  induction calls generalizing entries with
  | nil => rfl
  | cons call calls ih =>
      obtain ⟨name, handler⟩ := call
      obtain ⟨hname, hcalls⟩ := List.nodup_cons.mp h
      rw [List.foldl_cons, ih hcalls, lookup_insertEntry, lookup_entry]
      by_cases hn : n = name
      · have hnone : calls.lookup n = none := by
          rw [← Option.not_isSome_iff_eq_none, isSome_lookup, hn]
          exact hname
        rw [if_pos hn, if_pos hn, hnone, Option.none_or, Option.some_or]
      · rw [if_neg hn, if_neg hn]

section
variable (registry : Registry m) (name : Text) (handler : Handler m)

theorem register_eq_error_iff : registry.register name handler = .error .emptyName ↔
    name.trim = [] := by
  simp [register]

theorem tryRegister_eq : registry.tryRegister (name, handler) =
    if name.trim = [] then registry else ⟨insertEntry name.trim handler registry.entries⟩ := by
  unfold tryRegister register
  by_cases h : name.trim = []
  · simp only [if_pos h]
  · simp only [if_neg h]

theorem get?_tryRegister (n : Text) : (registry.tryRegister (name, handler)).get? n =
    if name.trim = n ∧ n ≠ [] then some handler else registry.get? n := by
  rw [tryRegister_eq]
  split
  · next hempty => grind
  · next hname =>
    rw [get?, lookup_insertEntry, get?]
    grind

theorem WellFormed.tryRegister {registry : Registry m} (h : registry.WellFormed)
    (call : Text × Handler m) : (registry.tryRegister call).WellFormed := by
  obtain ⟨name, handler⟩ := call
  rw [tryRegister_eq]
  split
  · exact h
  · next hname =>
    refine ⟨insertEntry_increasing _ _ h.increasing, fun n hn => ?_⟩
    cases (mem_insertEntry _ _ _).mp hn with
    | inl hn => exact hn ▸ ⟨Text.trim_trim name, hname⟩
    | inr hn => exact h.trimmed n hn

theorem tryRegister_comm {a b : Text × Handler m} (h : a.1.trim ≠ b.1.trim) :
    (registry.tryRegister a).tryRegister b = (registry.tryRegister b).tryRegister a := by
  obtain ⟨a, f⟩ := a
  obtain ⟨b, g⟩ := b
  simp only [tryRegister_eq]
  split
  · rfl
  · split
    · rfl
    · rw [insertEntry_comm h]

end

theorem WellFormed.registerAll {registry : Registry m} (h : registry.WellFormed)
    (calls : List (Text × Handler m)) : (registry.registerAll calls).WellFormed := by
  induction calls generalizing registry with
  | nil => exact h
  | cons call calls ih => exact ih (h.tryRegister call)

theorem registerAll_cons (registry : Registry m) (call : Text × Handler m)
    (calls : List (Text × Handler m)) :
    registry.registerAll (call :: calls) = (registry.tryRegister call).registerAll calls := rfl

theorem registerAll_append (registry : Registry m) (calls calls' : List (Text × Handler m)) :
    registry.registerAll (calls ++ calls') = (registry.registerAll calls).registerAll calls' :=
  List.foldl_append

theorem get?_registerAll (registry : Registry m) (calls : List (Text × Handler m)) (n : Text) :
    (registry.registerAll calls).get? n = (lastHandler? calls n).or (registry.get? n) := by
  induction calls using List.reverseRecOn with
  | nil => rfl
  | append_singleton calls call ih =>
      obtain ⟨name, handler⟩ := call
      rw [registerAll_append]
      have hlast := get?_tryRegister (registry.registerAll calls) name handler n
      rw [ih] at hlast
      refine hlast.trans ?_
      simp only [lastHandler?, List.reverse_append, List.reverse_singleton, List.singleton_append,
        List.find?_cons]
      split
      · next h => simp [h]
      · next h => simp [h]

theorem mem_names_iff (registry : Registry m) (n : Text) :
    n ∈ registry.names ↔ registry.contains n :=
  (isSome_lookup registry.entries n).symm

theorem wellFormed_empty : (empty : Registry m).WellFormed :=
  ⟨List.Pairwise.nil, fun _ h => absurd h List.not_mem_nil⟩

section
variable [Monad m] [MonadClock m]

/-- The standard functions are registered like all others. -/
theorem registerAll_standardEntries :
    (empty : Registry m).registerAll standardEntries = standard := rfl

theorem get?_standard (n : Text) :
    (standard : Registry m).get? n = standardEntries.lookup n := by
  have hnames : ((standardEntries : List (Text × Handler m)).map Prod.fst).Nodup := by
    simp [standardEntries]
  have hlookup := lookup_foldl_insertEntry hnames [] n
  rwa [List.lookup_nil, Option.or_none] at hlookup

theorem wellFormed_standard : (standard : Registry m).WellFormed :=
  registerAll_standardEntries (m := m) ▸ wellFormed_empty.registerAll standardEntries

/-- Registration from an empty or the standard registry on. A look-up finds what was registered last
under its name, or else what was there in the beginning. A name of nothing but space is refused, and
then everything stays as it was. The names are trimmed and not empty, each is listed once and in
order, and they are those that can be found. And two registrations in a row under different names
may change places: the registry is the same, to look-ups, listings, suggestions and calls. -/
theorem last_registration_wins {start : Registry m} (hstart : start = empty ∨ start = standard)
    (calls : List (Text × Handler m)) :
    (∀ n, (start.registerAll calls).get? n = (lastHandler? calls n).or (start.get? n)) ∧
    (∀ n, (empty : Registry m).get? n = none ∧
      (standard : Registry m).get? n = standardEntries.lookup n) ∧
    (∀ name handler,
      ((start.registerAll calls).register name handler = .error .emptyName ↔ name.trim = []) ∧
      (name.trim = [] → ∀ before after, calls = before ++ after →
        start.registerAll (before ++ (name, handler) :: after) = start.registerAll calls)) ∧
    (∀ n ∈ (start.registerAll calls).names, n.trim = n ∧ n ≠ []) ∧
    (start.registerAll calls).names.Pairwise (· < ·) ∧
    (∀ n, (n ∈ (start.registerAll calls).names ↔ (start.registerAll calls).contains n) ∧
      ((start.registerAll calls).contains n ↔
        ∃ handler, (start.registerAll calls).get? n = some handler)) ∧
    ∀ before a b after, calls = before ++ a :: b :: after → a.1.trim ≠ b.1.trim →
      start.registerAll (before ++ b :: a :: after) = start.registerAll calls := by
  have hwell : (start.registerAll calls).WellFormed := by
    cases hstart with
    | inl hempty => exact hempty ▸ wellFormed_empty.registerAll calls
    | inr hstandard => exact hstandard ▸ wellFormed_standard.registerAll calls
  refine ⟨get?_registerAll start calls, fun n => ⟨rfl, get?_standard n⟩, ?_, hwell.trimmed,
    hwell.increasing, ?_, ?_⟩
  · intro name handler
    refine ⟨register_eq_error_iff _ name handler, ?_⟩
    intro hname before after hcalls
    rw [hcalls, registerAll_append, registerAll_append, registerAll_cons, tryRegister_eq,
      if_pos hname]
  · intro n
    exact ⟨mem_names_iff _ n, Option.isSome_iff_exists⟩
  · intro before a b after hcalls hne
    rw [hcalls, registerAll_append, registerAll_append, registerAll_cons, registerAll_cons,
      registerAll_cons, registerAll_cons, tryRegister_comm _ hne]

end

/-- A standard function is replaced under its name with space around it, a name of a wide space is
refused, and two further functions are registered in the one order and in the other. -/
theorem last_registration_wins_over_standard :
    let answer (value : Text) : Handler (ReaderM Instant) := fun _ => pure (.ok value)
    let replaced := (" Fenix_TodayShiftDay\n".toList, answer ['1'])
    let refused := ("\u3000".toList, answer ['2'])
    let b := ("B ".toList, answer ['3'])
    let a := ("A".toList, answer ['4'])
    let registry := standard.registerAll [replaced, refused, b, a]
    registry.get? "Fenix_TodayShiftDay".toList = some (answer ['1']) ∧
    registry.get? "Fenix_ControlledUniqueId".toList = some UniqueId.handler ∧
    registry.get? "\u3000".toList = none ∧
    standard.registerAll [replaced, b, a] = registry ∧
    standard.registerAll [replaced, refused, a, b] = registry := by
  intro answer replaced refused b a registry
  obtain ⟨hget, _, _, _, _, _, hswap⟩ :=
    last_registration_wins (.inr rfl) [replaced, refused, b, a]
  obtain ⟨_, _, hrefused, _⟩ := last_registration_wins (.inr rfl) [replaced, b, a]
  refine ⟨hget _, hget _, hget _, ?_, ?_⟩
  · have hspace : Text.trim refused.1 = [] := by decide
    exact ((hrefused refused.1 refused.2).2 hspace [replaced] [b, a] rfl).symm
  · have hne : Text.trim b.1 ≠ Text.trim a.1 := by decide
    exact hswap [replaced, refused] b a [] rfl hne

end Placeholders.Registry
