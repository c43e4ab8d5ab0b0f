import Placeholders.Proofs.Segment.Verdict

/-!
The scan of two texts written one after the other. Where the first text leaves no opening undecided,
what follows it changes nothing in its segments, and the scan goes on behind it as from a fresh
start. Only literal text at the seam grows together.
-/

namespace Placeholders

theorem Occurrence.opens_of_read? {t : Text} {o : Occurrence} (h : read? t = some o) :
    ∃ inside, t = '{' :: '{' :: inside := by
  cases read?_eq_some_iff.mp h with
  | inl hfits =>
      obtain ⟨p, rest, hread, _⟩ := hfits
      rw [Placeholder.read?_eq_some hread, Placeholder.written_eq]
      exact ⟨_, rfl⟩
  | inr hcloses =>
      obtain ⟨_, inside, _, _, ht, _⟩ := hcloses
      exact ⟨inside, ht⟩

/-- What has the form of a placeholder is read whatever follows it. -/
theorem Occurrence.read?_of_hasForm {o : Occurrence} {rest : Text}
    (h : read? (o.written ++ rest) = some o) (hform : o.meaning.HasForm) (after : Text) :
    read? (o.written ++ after) = some o := by
  obtain ⟨p, _, hread, rfl⟩ := exists_of_hasForm h hform
  exact read?_eq_some_iff.mpr (.inl ⟨p, after, Placeholder.read?_written hread after, rfl⟩)

namespace Segment

/-- The segment of a document with `n` more bytes before it. -/
def shift (n : Nat) : Segment → Segment
  | literal t => literal t
  | placeholder start o => placeholder (n + start) o

/-- Segments one after another. A literal that ends the first ones and a literal that begins the
others become one. -/
def concat : List Segment → List Segment → List Segment
  | [], back => back
  | [literal t], literal u :: back => literal (t ++ u) :: back
  | segment :: front, back => segment :: concat front back

theorem concat_placeholder (n : Nat) (o : Occurrence) (front back : List Segment) :
    concat (placeholder n o :: front) back = placeholder n o :: concat front back := by
  cases front <;> rfl

theorem concat_consChar (c : Char) (front back : List Segment) :
    concat (consChar c front) back = consChar c (concat front back) := by
  match front, back with
  | [], [] => rfl
  | [], literal u :: back => rfl
  | [], placeholder n o :: back => rfl
  | [literal t], [] => rfl
  | [literal t], literal u :: back => rfl
  | [literal t], placeholder n o :: back => rfl
  | literal t :: segment :: front, back => rfl
  | placeholder n o :: front, back =>
      rw [concat_placeholder]
      exact congrArg (literal [c] :: ·) (concat_placeholder n o front back)

theorem consChar_shift (n : Nat) (c : Char) (segments : List Segment) :
    (consChar c segments).map (shift n) = consChar c (segments.map (shift n)) := by
  cases segments with
  | nil => rfl
  | cons segment segments => cases segment <;> rfl

theorem ofPieces_shift (n start : Nat) (pieces : List (Piece Occurrence)) :
    ofPieces (n + start) pieces = (ofPieces start pieces).map (shift n) := by
  induction pieces generalizing start with
  | nil => rfl
  | cons piece pieces ih =>
      cases piece with
      | char c => rw [ofPieces, ofPieces, consChar_shift, Nat.add_assoc, ih]
      | token o => rw [ofPieces, ofPieces, List.map_cons, Nat.add_assoc, ih, shift]

/-- The segments of a scan are settled by the text and the byte that it begins with. -/
theorem Scans.eq_ofPieces {start : Nat} {t : Text} {segments : List Segment}
    (h : Scans start t segments) :
    segments = ofPieces start (t.pieces Occurrence.read? Occurrence.written) := by
  induction h with
  | done => rfl
  | occurrence hread _ ih =>
      rw [Text.pieces_token hread (Occurrence.read?_eq_some hread).1, ofPieces, ih]
  | char hread _ ih => rw [Text.pieces_char hread, ofPieces, ih]

/-- Nothing in a text is left for what follows it to decide: its placeholders have the form of one,
and every opening lies in one of them. -/
structure Decided (start : Nat) (t : Text) (segments : List Segment) : Prop where
  form : ∀ n o, .placeholder n o ∈ segments → o.meaning.HasForm
  openings : ∀ before inside, t = before ++ '{' :: '{' :: inside →
    Covered segments (start + before.byteSize)
  last : t.getLast? ≠ some '{'

theorem getLast?_append_ne {t u : Text} {c : Char} (h : (t ++ u).getLast? ≠ some c) :
    u.getLast? ≠ some c := by
  intro hlast
  obtain ⟨front, rfl⟩ := List.getLast?_eq_some_iff.mp hlast
  exact h (by simp)

theorem Decided.rest {start : Nat} {o : Occurrence} {rest : Text} {segments : List Segment}
    (h : Decided start (o.written ++ rest) (.placeholder start o :: segments)) :
    Decided (start + o.written.byteSize) rest segments where
  form n o' ho' := h.form n o' (List.mem_cons_of_mem _ ho')
  openings before inside ht := by
    obtain ⟨n, o', hmem, hlow, hhigh⟩ := h.openings (o.written ++ before) inside (by simp [ht])
    rw [Text.byteSize_append, ← Nat.add_assoc] at hlow hhigh
    cases List.mem_cons.mp hmem with
    | inl heq =>
        obtain ⟨rfl, rfl⟩ := Segment.placeholder.inj heq
        simp only [span] at hhigh
        omega
    | inr hmem => exact ⟨n, o', hmem, hlow, hhigh⟩
  last := getLast?_append_ne h.last

theorem Decided.tail {start : Nat} {c : Char} {t : Text} {segments : List Segment}
    (h : Decided start (c :: t) (consChar c segments)) :
    Decided (start + c.utf8Size) t segments where
  form n o ho := h.form n o (mem_consChar ho)
  openings before inside ht := by
    obtain ⟨n, o, hmem, hspan⟩ := h.openings (c :: before) inside (by simp [ht])
    rw [Text.byteSize_cons, ← Nat.add_assoc] at hspan
    exact ⟨n, o, mem_of_mem_consChar hmem, hspan⟩
  last := getLast?_append_ne (t := [c]) h.last

/-- A character of a literal begins nothing even with more text behind: if it is a brace, the next
one stands in the same text and is none. -/
theorem Decided.read?_eq_none {start : Nat} {c : Char} {t : Text} {segments : List Segment}
    (h : Decided start (c :: t) (consChar c segments))
    (hscans : Scans (start + c.utf8Size) t segments) (after : Text) :
    Occurrence.read? (c :: (t ++ after)) = none := by
  rw [Option.eq_none_iff_forall_ne_some]
  intro o hread
  obtain ⟨inside, hinside⟩ := Occurrence.opens_of_read? hread
  obtain ⟨rfl, ht⟩ := List.cons.inj hinside
  cases t with
  | nil => exact h.last rfl
  | cons d t =>
      obtain ⟨rfl, _⟩ := List.cons.inj ht
      obtain ⟨n, o', hmem, hlow, _⟩ := h.openings [] t rfl
      have hstart := hscans.start_le (mem_of_mem_consChar hmem)
      have hpos := Char.utf8Size_pos '{'
      simp only [span, Text.byteSize_nil] at hlow
      omega

theorem Scans.concat {start : Nat} {a b : Text} {front back : List Segment}
    (h : Scans start a front) (hdecided : Decided start a front)
    (hback : Scans (start + a.byteSize) b back) :
    Scans start (a ++ b) (Segment.concat front back) := by
  induction h with
  | done => exact hback
  | occurrence hread _ ih =>
      rw [Text.byteSize_append, ← Nat.add_assoc] at hback
      have hform := hdecided.form _ _ (List.mem_cons_self ..)
      rw [List.append_assoc, concat_placeholder]
      exact .occurrence (Occurrence.read?_of_hasForm hread hform _) (ih hdecided.rest hback)
  | char hread hrest ih =>
      rw [Text.byteSize_cons, ← Nat.add_assoc] at hback
      rw [concat_consChar]
      exact .char (hdecided.read?_eq_none hrest b) (ih hdecided.tail hback)

/-- Scanning composes. If each placeholder of a text has the form of one, each opening lies in one
of them, and the text does not end in an opening brace, then a scan of the text with more behind it
gives the segments of the text, and behind them those of what follows, at offsets counted on. -/
theorem scan_append {a : Text}
    (hform : ∀ start o, .placeholder start o ∈ scan a → o.meaning.HasForm)
    (hopenings : ∀ n inside, a.fromByte? n = some ('{' :: '{' :: inside) → Covered (scan a) n)
    (hlast : a.getLast? ≠ some '{') (b : Text) :
    scan (a ++ b) = concat (scan a) ((scan b).map (shift a.byteSize)) := by
  have hdecided : Decided 0 a (scan a) := by
    refine ⟨hform, ?_, hlast⟩
    intro before inside ha
    rw [Nat.zero_add]
    exact hopenings _ inside (Text.fromByte?_eq_some_iff.mpr ⟨before, ha, rfl⟩)
  have hback := scans_ofPieces (0 + a.byteSize) b
  have hall := ((scans_scan a).concat hdecided hback).eq_ofPieces
  rw [scan, ← hall, scan, scan, Nat.zero_add, ← ofPieces_shift, Nat.add_zero]

/-- The first text ends in a brace that closes nothing, and literal text meets at the seam. -/
theorem scan_append_at_literals :
    scan "é{{A()}}x\x7d".toList = [.literal "é".toList,
      .placeholder 2 (.ofPlaceholder ⟨"A".toList, none, [], none⟩), .literal "x\x7d".toList] ∧
    scan "\x7dy{{B()}}".toList = [.literal "\x7dy".toList,
      .placeholder 2 (.ofPlaceholder ⟨"B".toList, none, [], none⟩)] ∧
    (∀ start o, .placeholder start o ∈ scan "é{{A()}}x\x7d".toList → o.meaning.HasForm) ∧
    (∀ n inside, Text.fromByte? n "é{{A()}}x\x7d".toList = some ('{' :: '{' :: inside) →
      Covered (scan "é{{A()}}x\x7d".toList) n) ∧
    scan ("é{{A()}}x\x7d".toList ++ "\x7dy{{B()}}".toList) = [.literal "é".toList,
      .placeholder 2 (.ofPlaceholder ⟨"A".toList, none, [], none⟩), .literal "x\x7d\x7dy".toList,
      .placeholder 13 (.ofPlaceholder ⟨"B".toList, none, [], none⟩)] := by
  have hfront : scan "é{{A()}}x\x7d".toList = [.literal "é".toList,
      .placeholder 2 (.ofPlaceholder ⟨"A".toList, none, [], none⟩), .literal "x\x7d".toList] := by
    decide
  have hback : scan "\x7dy{{B()}}".toList = [.literal "\x7dy".toList,
      .placeholder 2 (.ofPlaceholder ⟨"B".toList, none, [], none⟩)] := by decide
  have hform : ∀ start o, .placeholder start o ∈ scan "é{{A()}}x\x7d".toList →
      o.meaning.HasForm := by
    intro start o ho
    rw [hfront] at ho
    obtain ⟨_, rfl⟩ : start = 2 ∧ o = .ofPlaceholder ⟨"A".toList, none, [], none⟩ := by
      simpa using ho
    trivial
  have hopenings : ∀ n inside,
      Text.fromByte? n "é{{A()}}x\x7d".toList = some ('{' :: '{' :: inside) →
      Covered (scan "é{{A()}}x\x7d".toList) n := by
    intro n inside hfrom
    obtain ⟨before, htext, rfl⟩ := Text.fromByte?_eq_some_iff.mp hfrom
    have hbound : before.byteSize < 12 := by
      have hsize := congrArg Text.byteSize htext
      rw [Text.byteSize_append, show Text.byteSize "é{{A()}}x\x7d".toList = 11 by decide] at hsize
      omega
    have honly : ∀ n < 12, (Text.fromByte? n "é{{A()}}x\x7d".toList).map (List.take 2) =
        some ['{', '{'] → n = 2 := by decide
    rw [honly _ hbound (by rw [hfrom]; rfl), hfront]
    exact ⟨2, _, List.mem_cons_of_mem _ (List.mem_cons_self ..), by decide, by decide⟩
  have happend := scan_append hform hopenings (by decide) "\x7dy{{B()}}".toList
  rw [hfront, hback] at happend
  refine ⟨hfront, hback, hform, hopenings, happend.trans ?_⟩
  decide

end Segment
end Placeholders
