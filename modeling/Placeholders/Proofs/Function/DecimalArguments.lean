import Placeholders.Function.RandomDecimal
import Placeholders.Proofs.Failure
import Placeholders.Proofs.Text.Numeral

/-!
The arguments of random decimals and their sums. Which arguments are accepted and what they ask for,
and which of their faults is reported when there are several.
-/

namespace Placeholders
namespace DecimalForm

/-- The unsigned number of 32 bits that an argument says, with any space around it. -/
def SaysNatural (argument : Text) (n : Nat) : Prop :=
  Numeral.Signed argument.trim n ∧ n < UInt32.size

/-- What is wrong with an argument that says none: it is no number of 64 bits, or one out of
bounds. -/
inductive Refused (argument : Text) : CallProblem → Prop where
  | notAnInteger : (∀ i : Int64, ¬ Numeral.Signed argument.trim i.toInt) →
      Refused argument (.notAnInteger argument)
  | notUnsigned {i : Int64} : Numeral.Signed argument.trim i.toInt →
      i.toInt < 0 ∨ UInt32.size ≤ i.toInt → Refused argument (.outOfRange argument .notUnsigned32)

/-- The numbers of a form, in the order of the arguments. -/
def numbers (form : DecimalForm) : List Nat :=
  match form.widths with
  | none => [form.wholeDigits, form.places]
  | some (wholeWidth, fractionWidth) =>
    [form.wholeDigits, form.places, wholeWidth, fractionWidth]

/-- The arguments say the numbers of a form, and these are within their bounds. -/
structure AskedBy (form : DecimalForm) (arguments : List Text) : Prop where
  numbers : List.Forall₂ SaysNatural arguments form.numbers
  digits : form.wholeDigits + form.places ≤ 300
  widths : ∀ wholeWidth fractionWidth, form.widths = some (wholeWidth, fractionWidth) →
    wholeWidth ≤ 1024 ∧ fractionWidth ≤ 1024

/-- The first check that arguments fail: their count, each of them by itself, the digits in all, and
then the one width and the other. -/
inductive FirstFailed : List Text → CallProblem → Prop where
  | count {arguments : List Text} : arguments.length ≠ 2 → arguments.length ≠ 4 →
      FirstFailed arguments (.argumentCount .twoOrFour arguments)
  | argument {before after : List Text} {argument : Text} {problem : CallProblem} :
      (before ++ argument :: after).length = 2 ∨ (before ++ argument :: after).length = 4 →
      (∀ a ∈ before, ∃ n, SaysNatural a n) → Refused argument problem →
      FirstFailed (before ++ argument :: after) problem
  | digits {a : Text} {rest : List Text} {form : DecimalForm} :
      List.Forall₂ SaysNatural (a :: rest) form.numbers →
      300 < form.wholeDigits + form.places →
      FirstFailed (a :: rest) (.outOfRange a .tooManyDigits)
  | wholeWidth {a₁ a₂ a₃ a₄ : Text} {m n w v : Nat} :
      List.Forall₂ SaysNatural [a₁, a₂, a₃, a₄] [m, n, w, v] → m + n ≤ 300 → 1024 < w →
      FirstFailed [a₁, a₂, a₃, a₄] (.outOfRange a₃ .padTooWide)
  | fractionWidth {a₁ a₂ a₃ a₄ : Text} {m n w v : Nat} :
      List.Forall₂ SaysNatural [a₁, a₂, a₃, a₄] [m, n, w, v] → m + n ≤ 300 → w ≤ 1024 →
      1024 < v → FirstFailed [a₁, a₂, a₃, a₄] (.outOfRange a₄ .padTooWide)

section
variable (call : Call) {argument : Text}

theorem natural_eq {i : Int64} (h : Numeral.Signed argument.trim i.toInt) :
    natural call argument = if 0 ≤ i.toInt ∧ i.toInt.toNat < UInt32.size then .ok i.toInt.toNat
      else .error (call.error (.outOfRange argument .notUnsigned32)) := by
  rw [natural, Call.integer, Numeral.signed64?_eq_some_iff.mpr h]
  rfl

theorem natural_of_says {n : Nat} (h : SaysNatural argument n) :
    natural call argument = .ok n := by
  obtain ⟨hsigned, hn⟩ := h
  have hsize : UInt32.size = 4294967296 := rfl
  have hint : (Int64.ofInt n).toInt = n := Int64.toInt_ofInt_of_le (by omega) (by omega)
  rw [← hint] at hsigned
  rw [natural_eq call hsigned, hint, Int.toNat_natCast, if_pos ⟨by omega, hn⟩]

theorem natural_of_refused {problem : CallProblem} (h : Refused argument problem) :
    natural call argument = .error (call.error problem) := by
  cases h with
  | notAnInteger hnone =>
      have hread : Numeral.signed64? argument.trim = none := by
        rw [Option.eq_none_iff_forall_ne_some]
        intro i hi
        exact hnone i (Numeral.signed64?_eq_some_iff.mp hi)
      rw [natural, Call.integer, hread]
      rfl
  | notUnsigned hsigned hout =>
      rw [natural_eq call hsigned, if_neg]
      omega

end

theorem says_or_refused (argument : Text) :
    (∃ n, SaysNatural argument n) ∨ ∃ problem, Refused argument problem := by
  by_cases hinteger : ∃ i : Int64, Numeral.Signed argument.trim i.toInt
  · obtain ⟨i, hi⟩ := hinteger
    by_cases hrange : 0 ≤ i.toInt ∧ i.toInt < UInt32.size
    · refine .inl ⟨i.toInt.toNat, ?_, by omega⟩
      rwa [Int.toNat_of_nonneg hrange.1]
    · exact .inr ⟨_, .notUnsigned hi (by omega)⟩
  · exact .inr ⟨_, .notAnInteger (not_exists.mp hinteger)⟩

section
variable (call : Call) {arguments : List Text}

theorem mapM_natural_of_says {numbers : List Nat}
    (h : List.Forall₂ SaysNatural arguments numbers) :
    arguments.mapM (natural call) = .ok numbers :=
  (mapM_eq_ok_iff _).mpr (h.imp fun _ _ => natural_of_says call)

theorem mapM_natural_of_refused {before after : List Text} {argument : Text}
    {problem : CallProblem} (hbefore : ∀ a ∈ before, ∃ n, SaysNatural a n)
    (h : Refused argument problem) :
    (before ++ argument :: after).mapM (natural call) = .error (call.error problem) := by
  refine mapM_eq_error_of_first _ (fun a ha => ?_) (natural_of_refused call h)
  obtain ⟨n, hn⟩ := hbefore a ha
  exact ⟨n, natural_of_says call hn⟩

end

/-- The form of numbers that were read, judged by its size. -/
def judge (call : Call) : List Text → List Nat → Except CallError DecimalForm
  | [a₁, _], [m, n] => do
    checkDigits call a₁ m n
    pure ⟨m, n, none⟩
  | [a₁, _, a₃, a₄], [m, n, w, v] => do
    checkDigits call a₁ m n
    checkWidth call a₃ w
    checkWidth call a₄ v
    pure ⟨m, n, some (w, v)⟩
  | _, _ => .error (call.countError .twoOrFour)

section
variable {call : Call} {arguments : List Text}

theorem ofCall_of_count (harguments : call.invocation.arguments = arguments)
    (h : arguments.length ≠ 2) (h' : arguments.length ≠ 4) :
    ofCall call = .error (call.error (.argumentCount .twoOrFour arguments)) := by
  unfold ofCall
  split
  · next h₂ => exact absurd (by rw [← harguments, h₂]; rfl) h
  · next h₄ => exact absurd (by rw [← harguments, h₄]; rfl) h'
  · rw [Call.countError, harguments]

/-- The arguments are read, from the first to the last, and then judged. -/
theorem ofCall_eq_judge (harguments : call.invocation.arguments = arguments)
    (h : arguments.length = 2 ∨ arguments.length = 4) :
    ofCall call = arguments.mapM (natural call) >>= judge call arguments := by
  unfold ofCall
  cases h with
  | inl h₂ =>
      obtain ⟨a₁, a₂, rfl⟩ := List.length_eq_two.mp h₂
      simp only [harguments, List.mapM_cons, List.mapM_nil, bind_assoc, pure_bind, judge]
  | inr h₄ =>
      obtain ⟨a₁, a₂, a₃, a₄, rfl⟩ := List.length_eq_four.mp h₄
      simp only [harguments, List.mapM_cons, List.mapM_nil, bind_assoc, pure_bind, judge]

theorem count_of_numbers {form : DecimalForm}
    (h : List.Forall₂ SaysNatural arguments form.numbers) :
    arguments.length = 2 ∨ arguments.length = 4 := by
  rw [h.length_eq, numbers]
  cases form.widths with
  | none => exact .inl rfl
  | some widths => exact .inr rfl

theorem ofCall_of_numbers (harguments : call.invocation.arguments = arguments)
    (form : DecimalForm) (h : List.Forall₂ SaysNatural arguments form.numbers) :
    ofCall call = judge call arguments form.numbers := by
  rw [ofCall_eq_judge harguments (count_of_numbers h), mapM_natural_of_says call h]
  rfl

theorem ofCall_of_askedBy (harguments : call.invocation.arguments = arguments)
    {form : DecimalForm} (h : form.AskedBy arguments) : ofCall call = .ok form := by
  rw [ofCall_of_numbers harguments form h.numbers]
  have hcount := h.numbers.length_eq
  obtain ⟨-, hdigits, hwidths⟩ := h
  obtain ⟨m, n, widths⟩ := form
  cases widths with
  | none =>
      obtain ⟨a₁, a₂, rfl⟩ := List.length_eq_two.mp hcount
      have hcheck : checkDigits call a₁ m n = .ok () := if_pos hdigits
      simp only [numbers, judge, hcheck]
      rfl
  | some widths =>
      obtain ⟨w, v⟩ := widths
      obtain ⟨a₁, a₂, a₃, a₄, rfl⟩ := List.length_eq_four.mp hcount
      obtain ⟨hwhole, hfraction⟩ := hwidths w v rfl
      have hcheck : checkDigits call a₁ m n = .ok () := if_pos hdigits
      have hcheck' : checkWidth call a₃ w = .ok () := if_pos hwhole
      have hcheck'' : checkWidth call a₄ v = .ok () := if_pos hfraction
      simp only [numbers, judge, hcheck, hcheck', hcheck'']
      rfl

theorem ofCall_of_firstFailed (harguments : call.invocation.arguments = arguments)
    {problem : CallProblem} (h : FirstFailed arguments problem) :
    ofCall call = .error (call.error problem) := by
  cases h with
  | count h₂ h₄ => exact ofCall_of_count harguments h₂ h₄
  | argument hcount hbefore hrefused =>
      rw [ofCall_eq_judge harguments hcount, mapM_natural_of_refused call hbefore hrefused]
      rfl
  | @digits a rest form hnumbers hlarge =>
      rw [ofCall_of_numbers harguments form hnumbers]
      have hcheck : checkDigits call a form.wholeDigits form.places =
          .error (call.error (.outOfRange a .tooManyDigits)) := if_neg (Nat.not_le.mpr hlarge)
      have hcount := hnumbers.length_eq
      obtain ⟨m, n, widths⟩ := form
      cases widths with
      | none =>
          obtain ⟨a₂, rfl⟩ := List.length_eq_one_iff.mp (Nat.succ.inj hcount)
          simp only [numbers, judge, hcheck]
          rfl
      | some widths =>
          obtain ⟨a₂, a₃, a₄, rfl⟩ := List.length_eq_three.mp (Nat.succ.inj hcount)
          simp only [numbers, judge, hcheck]
          rfl
  | @wholeWidth a₁ a₂ a₃ a₄ m n w v hnumbers hdigits hlarge =>
      have hcheck : checkDigits call a₁ m n = .ok () := if_pos hdigits
      have hcheck' : checkWidth call a₃ w = .error (call.error (.outOfRange a₃ .padTooWide)) :=
        if_neg (Nat.not_le.mpr hlarge)
      rw [ofCall_of_numbers harguments ⟨m, n, some (w, v)⟩ hnumbers]
      simp only [numbers, judge, hcheck, hcheck']
      rfl
  | @fractionWidth a₁ a₂ a₃ a₄ m n w v hnumbers hdigits hwhole hlarge =>
      have hcheck : checkDigits call a₁ m n = .ok () := if_pos hdigits
      have hcheck' : checkWidth call a₃ w = .ok () := if_pos hwhole
      have hcheck'' : checkWidth call a₄ v = .error (call.error (.outOfRange a₄ .padTooWide)) :=
        if_neg (Nat.not_le.mpr hlarge)
      rw [ofCall_of_numbers harguments ⟨m, n, some (w, v)⟩ hnumbers]
      simp only [numbers, judge, hcheck, hcheck', hcheck'']
      rfl

end

theorem says_all_or_refused (arguments : List Text) :
    (∃ numbers, List.Forall₂ SaysNatural arguments numbers) ∨
    ∃ before argument after problem, arguments = before ++ argument :: after ∧
      (∀ a ∈ before, ∃ n, SaysNatural a n) ∧ Refused argument problem := by
  induction arguments with
  | nil => exact .inl ⟨[], .nil⟩
  | cons a arguments ih =>
      cases says_or_refused a with
      | inr hrefused =>
          obtain ⟨problem, hrefused⟩ := hrefused
          exact .inr ⟨[], a, arguments, problem, rfl, List.forall_mem_nil _, hrefused⟩
      | inl hsays =>
          obtain ⟨n, hn⟩ := hsays
          cases ih with
          | inl hall =>
              obtain ⟨numbers, hnumbers⟩ := hall
              exact .inl ⟨n :: numbers, .cons hn hnumbers⟩
          | inr hbad =>
              obtain ⟨before, b, after, problem, rfl, hbefore, hrefused⟩ := hbad
              exact .inr ⟨a :: before, b, after, problem, rfl,
                List.forall_mem_cons.mpr ⟨⟨n, hn⟩, hbefore⟩, hrefused⟩

/-- Numbers as many as a form has are the numbers of a form. -/
theorem exists_numbers {arguments : List Text} {numbers : List Nat}
    (h : List.Forall₂ SaysNatural arguments numbers)
    (hcount : arguments.length = 2 ∨ arguments.length = 4) :
    ∃ form : DecimalForm, form.numbers = numbers := by
  rw [h.length_eq] at hcount
  cases hcount with
  | inl h₂ =>
      obtain ⟨m, n, rfl⟩ := List.length_eq_two.mp h₂
      exact ⟨⟨m, n, none⟩, rfl⟩
  | inr h₄ =>
      obtain ⟨m, n, w, v, rfl⟩ := List.length_eq_four.mp h₄
      exact ⟨⟨m, n, some (w, v)⟩, rfl⟩

theorem askedBy_or_widthFailed {arguments : List Text} {form : DecimalForm}
    (h : List.Forall₂ SaysNatural arguments form.numbers)
    (hdigits : form.wholeDigits + form.places ≤ 300) :
    form.AskedBy arguments ∨ ∃ problem, FirstFailed arguments problem := by
  obtain ⟨m, n, widths⟩ := form
  cases widths with
  | none => exact .inl ⟨h, hdigits, nofun⟩
  | some widths =>
      obtain ⟨w, v⟩ := widths
      obtain ⟨a₁, a₂, a₃, a₄, rfl⟩ := List.length_eq_four.mp h.length_eq
      by_cases hwhole : w ≤ 1024
      · by_cases hfraction : v ≤ 1024
        · refine .inl ⟨h, hdigits, fun wholeWidth fractionWidth hwidths => ?_⟩
          obtain ⟨rfl, rfl⟩ := Prod.mk.inj (Option.some.inj hwidths)
          exact ⟨hwhole, hfraction⟩
        · exact .inr ⟨_, .fractionWidth h hdigits hwhole (Nat.lt_of_not_le hfraction)⟩
      · exact .inr ⟨_, .wholeWidth h hdigits (Nat.lt_of_not_le hwhole)⟩

/-- Arguments are accepted, or there is a first check that they fail. -/
theorem askedBy_or_firstFailed (arguments : List Text) :
    (∃ form : DecimalForm, form.AskedBy arguments) ∨ ∃ problem, FirstFailed arguments problem := by
  by_cases hcount : arguments.length = 2 ∨ arguments.length = 4
  · cases says_all_or_refused arguments with
    | inr hbad =>
        obtain ⟨before, argument, after, problem, rfl, hbefore, hrefused⟩ := hbad
        exact .inr ⟨problem, .argument hcount hbefore hrefused⟩
    | inl hall =>
        obtain ⟨numbers, hnumbers⟩ := hall
        obtain ⟨form, rfl⟩ := exists_numbers hnumbers hcount
        by_cases hdigits : form.wholeDigits + form.places ≤ 300
        · exact (askedBy_or_widthFailed hnumbers hdigits).imp_left fun h => ⟨form, h⟩
        · obtain ⟨a, rest, rfl⟩ : ∃ a rest, arguments = a :: rest := by
            cases arguments with
            | nil => simp at hcount
            | cons a rest => exact ⟨a, rest, rfl⟩
          exact .inr ⟨_, .digits hnumbers (Nat.lt_of_not_le hdigits)⟩
  · obtain ⟨h₂, h₄⟩ := not_or.mp hcount
    exact .inr ⟨_, .count h₂ h₄⟩

section
variable {call : Call}

theorem ofCall_eq_ok_iff {form : DecimalForm} :
    ofCall call = .ok form ↔ form.AskedBy call.invocation.arguments := by
  refine ⟨fun h => ?_, ofCall_of_askedBy rfl⟩
  cases askedBy_or_firstFailed call.invocation.arguments with
  | inl hasked =>
      obtain ⟨form', hasked⟩ := hasked
      rw [ofCall_of_askedBy rfl hasked] at h
      rwa [← Except.ok.inj h]
  | inr hfailed =>
      obtain ⟨problem, hfailed⟩ := hfailed
      rw [ofCall_of_firstFailed rfl hfailed] at h
      contradiction

/-- A form that is accepted has at most 300 digits. -/
theorem digits_le_of_ofCall {form : DecimalForm} (h : ofCall call = .ok form) :
    form.wholeDigits + form.places ≤ 300 :=
  (ofCall_eq_ok_iff.mp h).digits

theorem ofCall_eq_error_iff {e : CallError} : ofCall call = .error e ↔
    ∃ problem, FirstFailed call.invocation.arguments problem ∧ e = call.error problem := by
  constructor
  · intro h
    cases askedBy_or_firstFailed call.invocation.arguments with
    | inl hasked =>
        obtain ⟨form, hasked⟩ := hasked
        rw [ofCall_of_askedBy rfl hasked] at h
        contradiction
    | inr hfailed =>
        obtain ⟨problem, hfailed⟩ := hfailed
        rw [ofCall_of_firstFailed rfl hfailed] at h
        exact ⟨problem, hfailed, (Except.error.inj h).symm⟩
  · rintro ⟨problem, hfailed, rfl⟩
    exact ofCall_of_firstFailed rfl hfailed

end

end DecimalForm

namespace RandomDecimal

section
variable (call : Call) (e : CallError)

theorem sum_eq_error_iff : sum call = .error e ↔ DecimalForm.ofCall call = .error e :=
  bind_pure_eq_error_iff

theorem value_eq_error_iff : value call = .error e ↔
    if call.invocation.indexes.length ≤ 1 then DecimalForm.ofCall call = .error e
    else e = call.error (.tooManyIndexes call.invocation.indexes) := by
  split
  · next hone =>
    obtain ⟨index, hindex⟩ := call.onlyIndex_eq_ok hone
    rw [value, hindex]
    exact bind_pure_eq_error_iff
  · next hmany =>
    rw [value, call.onlyIndex_eq_error hmany]
    constructor
    · intro h
      exact (Except.error.inj h).symm
    · intro h
      rw [h]
      rfl

end

/-- Two or four arguments are accepted if each says an unsigned number of 32 bits, the digits are at
most 300 in all, and the widths at most 1024 each; the form has these numbers. Otherwise the first
check that fails is reported, with the argument at fault. A sum reports the same whatever its
indexes are, and a random decimal does once its index is found good. -/
theorem arguments_exact (call : Call) :
    (∀ form, DecimalForm.ofCall call = .ok form ↔ form.AskedBy call.invocation.arguments) ∧
    (∀ e, DecimalForm.ofCall call = .error e ↔
      ∃ problem, DecimalForm.FirstFailed call.invocation.arguments problem ∧
        e = call.error problem) ∧
    (∀ e, sum call = .error e ↔ DecimalForm.ofCall call = .error e) ∧
    ∀ e, value call = .error e ↔
      if call.invocation.indexes.length ≤ 1 then DecimalForm.ofCall call = .error e
      else e = call.error (.tooManyIndexes call.invocation.indexes) :=
  ⟨fun _ => DecimalForm.ofCall_eq_ok_iff, fun _ => DecimalForm.ofCall_eq_error_iff,
    sum_eq_error_iff call, value_eq_error_iff call⟩

/-- The third argument is out of bounds, and only then are there too many digits. -/
example (call : Call) (h : call.invocation.arguments =
    ["300".toList, " +1 ".toList, "-1".toList, "x".toList]) :
    DecimalForm.ofCall call = .error (call.error (.outOfRange "-1".toList .notUnsigned32)) := by
  rw [DecimalForm.ofCall, h]
  rfl

end RandomDecimal
end Placeholders
