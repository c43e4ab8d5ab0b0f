import Placeholders.Proofs.Segment.Scan
import Placeholders.Proofs.Text.Splitting
import Placeholders.Proofs.Text.Trimming

/-!
References to test data. Text in double braces is one if a piece of it between dots says so, and the
last piece behind the first such piece is the column.
-/

namespace Placeholders
namespace TestData

/-- The pieces of a body between its dots, with the last one apart. -/
structure Divided (body : Text) (before : List Text) (last : Text) : Prop where
  joined : Text.join ['.'] (before ++ [last]) = body
  whole : ∀ piece ∈ before ++ [last], '.' ∉ piece

theorem exists_divided (body : Text) : ∃ before last, Divided body before last := by
  refine ⟨(Text.splitOn '.' body).dropLast,
    (Text.splitOn '.' body).getLast (Text.splitOn_ne_nil '.' body), ?_, ?_⟩
  · rw [List.dropLast_append_getLast]
    exact Text.join_splitOn '.' body
  · rw [List.dropLast_append_getLast]
    exact fun piece => Text.notMem_of_mem_splitOn

theorem getLast?_behind_first (mark : Text) (before : List Text) (last : Text) :
    ((before ++ [last]).dropWhile (· != mark)).tail.getLast? =
      if mark ∈ before then some last else none := by
  induction before with
  | nil =>
      rw [if_neg List.not_mem_nil, List.nil_append, List.dropWhile_cons]
      split <;> rfl
  | cons piece before ih =>
      rw [List.cons_append, List.dropWhile_cons]
      by_cases hpiece : piece = mark
      · simp [hpiece]
      · simp [hpiece, ih, Ne.symm hpiece]

section
variable {body last : Text} {before : List Text} (h : Divided body before last)
include h

theorem Divided.parts_eq : parts body = before.map Text.trim ++ [last.trim] := by
  rw [parts, ← h.joined, Text.splitOn_join '.' (by simp) h.whole, List.map_append,
    List.map_singleton]

/-- Some piece says that a body is a reference. -/
theorem Divided.isReference_iff :
    isReference body ↔ ∃ piece ∈ before ++ [last], Text.Trims piece marker := by
  simp only [isReference, h.parts_eq, List.contains_iff_mem, List.mem_append, List.mem_map,
    List.mem_singleton, Text.trims_iff]
  grind

theorem Divided.column?_eq : column? body =
    if marker ∈ before.map Text.trim ∧ last.trim ≠ [] then some last.trim else none := by
  rw [column?, h.parts_eq, getLast?_behind_first]
  by_cases hmarked : marker ∈ before.map Text.trim
  · cases hlast : last.trim with
    | nil => simp [hmarked]
    | cons c t => simp [hmarked]
  · simp [hmarked]

theorem Divided.column?_eq_none_iff (hreference : isReference body) : column? body = none ↔
    Text.Trims last [] ∨
      Text.Trims last marker ∧ ∀ piece ∈ before, ¬ Text.Trims piece marker := by
  have hmarked : marker ∈ before.map Text.trim ↔ ∃ piece ∈ before, Text.Trims piece marker := by
    simp only [List.mem_map, Text.trims_iff, eq_comm]
  constructor
  · intro hnone
    by_cases hearlier : marker ∈ before.map Text.trim
    · refine .inl (Text.trims_iff.mpr ?_)
      by_contra hlast
      rw [h.column?_eq, if_pos ⟨hearlier, Ne.symm hlast⟩] at hnone
      contradiction
    · have hnot (piece : Text) (hpiece : piece ∈ before) : ¬ Text.Trims piece marker :=
        fun htrims => hearlier (hmarked.mpr ⟨piece, hpiece, htrims⟩)
      refine .inr ⟨?_, hnot⟩
      obtain ⟨piece, hpiece, htrims⟩ := h.isReference_iff.mp hreference
      cases List.mem_append.mp hpiece with
      | inl hbefore => exact absurd htrims (hnot piece hbefore)
      | inr hlast => exact List.mem_singleton.mp hlast ▸ htrims
  · intro hcolumn
    rw [h.column?_eq, if_neg]
    rintro ⟨hearlier, hlast⟩
    cases hcolumn with
    | inl hblank => exact hlast (Text.trims_iff.mp hblank).symm
    | inr hfirst =>
        obtain ⟨piece, hpiece, htrims⟩ := hmarked.mp hearlier
        exact hfirst.2 piece hpiece htrims

theorem Divided.trims_of_column?_eq_some {column : Text} (hcolumn : column? body = some column) :
    Text.Trims last column := by
  rw [h.column?_eq] at hcolumn
  split at hcolumn
  · exact Text.trims_iff.mpr (Option.some.inj hcolumn).symm
  · contradiction

end

end TestData

theorem Occurrence.meaning_ofBody_eq_testData_iff {body : Text} {column : Option Text} :
    (ofBody body).meaning = .testData column ↔
      TestData.isReference body ∧ column = TestData.column? body := by
  simp only [ofBody]
  split
  · next href => simp [href, eq_comm]
  · next href => simp [href]

end Placeholders
