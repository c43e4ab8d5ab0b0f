import Mathlib.Data.List.DropRight
import Mathlib.Data.List.TakeWhile
import Placeholders.Text.Blank

/-!
Trimming takes away what space was put around a text, and nothing else.
-/

namespace Placeholders
namespace Text

variable {before t after : Text}

theorem trimStart_append (hbefore : ∀ c ∈ before, isSpace c) (t : Text) :
    trimStart (before ++ t) = trimStart t :=
  List.dropWhile_append_of_pos hbefore

theorem trimEnd_append (t : Text) (hafter : ∀ c ∈ after, isSpace c) :
    trimEnd (t ++ after) = trimEnd t := by
  have hreverse : ∀ c ∈ after.reverse, isSpace c := fun c hc => hafter c (List.mem_reverse.mp hc)
  rw [trimEnd, trimEnd, List.reverse_append, List.dropWhile_append_of_pos hreverse]

theorem trim_eq_nil (h : ∀ c ∈ t, isSpace c) : t.trim = [] := by
  have hstart : trimStart t = [] := List.dropWhile_eq_nil_iff.mpr h
  rw [trim, hstart]
  rfl

theorem trim_suffix_prefix (t : Text) : t.trim <+: t.trimStart ∧ t.trimStart <:+ t :=
  ⟨List.rdropWhile_prefix isSpace t.trimStart, List.dropWhile_suffix isSpace⟩

theorem trim_trim (t : Text) : t.trim.trim = t.trim := by
  obtain ⟨hfront, _⟩ := trim_suffix_prefix t
  have hstart : t.trim.trimStart = t.trim := by
    refine List.dropWhile_eq_self_iff.mpr fun hpos => ?_
    rw [hfront.getElem hpos]
    exact List.dropWhile_eq_self_iff.mp (List.dropWhile_idempotent isSpace t) _
  rw [trim, hstart]
  exact List.rdropWhile_idempotent isSpace t.trimStart

/-- A text that trimming keeps has no space at its ends. -/
theorem trimStart_trimEnd_of_trim (h : t.trim = t) : t.trimStart = t ∧ t.trimEnd = t := by
  obtain ⟨hfront, hback⟩ := trim_suffix_prefix t
  rw [h] at hfront
  have hstart : t.trimStart = t :=
    hback.eq_of_length (Nat.le_antisymm hback.length_le hfront.length_le)
  rw [trim, hstart] at h
  exact ⟨hstart, h⟩

theorem trim_eq_self (h : ∀ c ∈ t, isSpace c = false) : t.trim = t := by
  have hkeep {u : Text} (hu : ∀ c ∈ u, isSpace c = false) : u.dropWhile isSpace = u := by
    cases u with
    | nil => rfl
    | cons c u => exact List.dropWhile_cons_of_neg (by simp [hu c (List.mem_cons_self ..)])
  have hreverse : ∀ c ∈ t.reverse, isSpace c = false := fun c hc => h c (List.mem_reverse.mp hc)
  rw [trim, trimStart, hkeep h, trimEnd, hkeep hreverse, List.reverse_reverse]

theorem trim_spaced (hbefore : ∀ c ∈ before, isSpace c) (hafter : ∀ c ∈ after, isSpace c)
    (h : t.trim = t) : (before ++ t ++ after).trim = t := by
  by_cases hnil : t = []
  · subst hnil
    rw [List.append_nil]
    exact trim_eq_nil fun c hc => (List.mem_append.mp hc).elim (hbefore c) (hafter c)
  · obtain ⟨hstart, hend⟩ := trimStart_trimEnd_of_trim h
    have hkept : trimStart (t ++ after) = t ++ after := by
      rw [trimStart, List.dropWhile_append]
      rw [trimStart] at hstart
      rw [hstart, if_neg (by simpa using hnil)]
    rw [trim, List.append_assoc, trimStart_append hbefore, hkept, trimEnd_append t hafter, hend]

/-- `t` is `core` with space around it, and no space stands at the ends of `core`. -/
def Trims (t core : Text) : Prop :=
  (∃ before after, t = before ++ core ++ after ∧ (∀ c ∈ before, isSpace c) ∧
    ∀ c ∈ after, isSpace c) ∧
  ∀ c, core.head? = some c ∨ core.getLast? = some c → isSpace c = false

section
variable {core : Text}

theorem trim_eq_self_iff :
    t.trim = t ↔ ∀ c, t.head? = some c ∨ t.getLast? = some c → isSpace c = false := by
  constructor
  · intro h c hc
    obtain ⟨hstart, hend⟩ := trimStart_trimEnd_of_trim h
    cases hc with
    | inl hhead =>
        obtain ⟨rest, rfl⟩ := List.head?_eq_some_iff.mp hhead
        simpa using List.dropWhile_eq_self_iff.mp hstart (Nat.zero_lt_succ _)
    | inr hlast =>
        obtain ⟨front, rfl⟩ := List.getLast?_eq_some_iff.mp hlast
        simpa using List.rdropWhile_eq_self_iff.mp hend (List.concat_ne_nil c front)
  · intro h
    have hstart : t.trimStart = t := by
      refine List.dropWhile_eq_self_iff.mpr fun hpos => ?_
      simpa using h _ (.inl (List.head?_eq_getElem? ▸ List.getElem?_eq_getElem hpos))
    have hend : t.trimEnd = t := by
      refine List.rdropWhile_eq_self_iff.mpr fun hne => ?_
      simpa using h _ (.inr (List.getLast?_eq_some_getLast hne))
    rw [trim, hstart, hend]

theorem trims_iff : Trims t core ↔ core = t.trim := by
  constructor
  · intro h
    obtain ⟨⟨before, after, rfl, hbefore, hafter⟩, hends⟩ := h
    exact (trim_spaced hbefore hafter (trim_eq_self_iff.mpr hends)).symm
  · intro h
    subst h
    refine ⟨⟨t.takeWhile isSpace, (t.trimStart.reverse.takeWhile isSpace).reverse, ?_, ?_, ?_⟩,
      trim_eq_self_iff.mp (trim_trim t)⟩
    · have hend : t.trim ++ (t.trimStart.reverse.takeWhile isSpace).reverse = t.trimStart := by
        rw [trim, trimEnd, ← List.reverse_append, List.takeWhile_append_dropWhile,
          List.reverse_reverse]
      rw [List.append_assoc, hend]
      exact List.takeWhile_append_dropWhile.symm
    · exact fun c hc => List.mem_takeWhile_imp hc
    · exact fun c hc => List.mem_takeWhile_imp (List.mem_reverse.mp hc)

theorem trim_eq_nil_iff : t.trim = [] ↔ ∀ c ∈ t, isSpace c := by
  refine ⟨fun h => ?_, trim_eq_nil⟩
  obtain ⟨⟨before, after, rfl, hbefore, hafter⟩, _⟩ := trims_iff.mpr h.symm
  rw [List.append_nil]
  exact fun c hc => (List.mem_append.mp hc).elim (hbefore c) (hafter c)

end

end Text
end Placeholders
