import Placeholders.Function.ShiftedDate
import Placeholders.Proofs.Calendar.DayNumbers
import Placeholders.Proofs.Text.Numeral

/-!
The moved date of today. It is the day that many days away by the rules of the calendar, as long as
its year is in the range of the calendar, and nothing else about the time of the clock matters.
-/

namespace Placeholders
namespace Date

/-- Year, month and day with hyphens between them. -/
def iso (d : Date) : Text :=
  writeYear d.year ++ '-' :: (Numeral.padded 2 d.month ++ '-' :: Numeral.padded 2 d.day)

theorem add?_eq {d e : Date} {duration : Duration} (hd : d.IsDay)
    (h : DaysAfter duration.days d e) : d.add? duration = if e.IsValid then some e else none := by
  have hrange : (firstYear ≤ e.year ∧ e.year ≤ lastYear) ↔ e.IsValid := by
    rw [isValid_iff, and_iff_right h.1]
  rw [add?, ← (daysAfter_iff hd).mp h]
  simp only [hrange]

theorem IsValid.toDays_bounds {d : Date} (h : d.IsValid) :
    daysBeforeYear firstYear ≤ d.toDays ∧ d.toDays < daysBeforeYear (lastYear + 1) := by
  obtain ⟨hday, hfirst, hlast⟩ := isValid_iff.mp h
  obtain ⟨hle, hlt⟩ := Date.toDays_bounds hday
  have hfirst' := daysBeforeYear_mono hfirst
  have hlast' := daysBeforeYear_mono (Int.add_le_add_right hlast 1)
  omega

/-- No two days of the calendar are farther apart than the longest duration. -/
theorem DaysAfter.natAbs_le {d e : Date} {n : Int} (hd : d.IsValid) (he : e.IsValid)
    (h : DaysAfter n d e) : n.natAbs ≤ longestDuration := by
  obtain ⟨hle, hlt⟩ := hd.toDays_bounds
  obtain ⟨hle', hlt'⟩ := he.toDays_bounds
  have hnumber := (ofDays_spec (d.toDays + n)).2
  rw [← (daysAfter_iff (isValid_iff.mp hd).1).mp h] at hnumber
  have hfirst : -100000000 ≤ daysBeforeYear firstYear := by decide
  have hlast : daysBeforeYear (lastYear + 1) ≤ 100000000 := by decide
  have hlongest : 200000000 ≤ longestDuration := by decide
  omega

end Date

namespace Duration

theorem ofDays?_eq_some_iff {n : Int} {duration : Duration} :
    ofDays? n = some duration ↔ duration.days = n := by
  unfold ofDays?
  constructor
  · intro h
    split at h
    · rw [← Option.some_inj.mp h]
    · contradiction
  · rintro rfl
    rw [dif_pos duration.natAbs_le]

theorem ofDays?_eq_none_iff {n : Int} : ofDays? n = none ↔ Date.longestDuration < n.natAbs := by
  unfold ofDays?
  split
  · next hle => exact iff_of_false (Option.some_ne_none _) (Nat.not_lt.mpr hle)
  · next hlt => exact iff_of_true rfl (Nat.lt_of_not_le hlt)

end Duration

namespace ShiftedDate

/-- A call without index, and with the number of days as its only argument or without argument. -/
def Shifts (call : Call) (argument : Text) (days : Int64) : Prop :=
  call.invocation.indexes = [] ∧
    (call.invocation.arguments = [] ∧ argument = ['0'] ∧ days = 0 ∨
      call.invocation.arguments = [argument] ∧ Numeral.Signed argument.trim days.toInt)

section
variable {call : Call} {argument : Text} {days : Int64}

theorem integer_eq_ok_iff : call.integer argument = .ok days ↔
    Numeral.Signed argument.trim days.toInt := by
  rw [← Numeral.signed64?_eq_some_iff, Call.integer]
  cases Numeral.signed64? argument.trim with
  | none => simp
  | some n => simp

theorem offset_eq_ok_iff : offset call = .ok (argument, days) ↔ Shifts call argument days := by
  unfold offset Shifts
  split
  · next hindexes => simp [hindexes]
  · next hindexes =>
    rw [and_iff_right (not_not.mp hindexes)]
    split
    · next harguments => simp [harguments, eq_comm]
    · next a harguments =>
      rw [harguments]
      constructor
      · intro h
        cases hinteger : call.integer a with
        | error e =>
            rw [hinteger] at h
            contradiction
        | ok n =>
            rw [hinteger] at h
            obtain ⟨rfl, rfl⟩ := Prod.mk.inj (Except.ok.inj h)
            exact .inr ⟨rfl, integer_eq_ok_iff.mp hinteger⟩
      · intro h
        cases h with
        | inl hnone => exact absurd hnone.1 (List.cons_ne_nil a [])
        | inr hone =>
            obtain ⟨hargument, hsigned⟩ := hone
            obtain rfl := List.singleton_inj.mp hargument
            rw [integer_eq_ok_iff.mpr hsigned]
            rfl
    · next hnone hone =>
      constructor
      · intro h
        contradiction
      · intro h
        cases h with
        | inl hnil => exact absurd hnil.1 hnone
        | inr hsingle => exact absurd hsingle.1 (hone argument)

/-- A duration that is too long would lead out of the calendar. -/
theorem shifted?_eq {now : Instant} {e : Date} (hnow : now.date.IsValid)
    (h : Date.DaysAfter days.toInt now.date e) :
    shifted? now days = if e.IsValid then some e.iso else none := by
  unfold shifted?
  cases hduration : Duration.ofDays? days.toInt with
  | none =>
      have hlong := Duration.ofDays?_eq_none_iff.mp hduration
      have hout : ¬ e.IsValid := fun he => absurd (h.natAbs_le hnow he) (Nat.not_le.mpr hlong)
      rw [if_neg hout]
      rfl
  | some duration =>
      rw [← Duration.ofDays?_eq_some_iff.mp hduration] at h
      rw [Option.bind_eq_bind, Option.bind_some, Date.add?_eq (Date.isValid_iff.mp hnow).1 h]
      split
      · simp [Instant.write, TimeField.isoDate, Instant.writeField, Date.iso]
      · rfl

theorem run_handler {now : Instant} {e : Date} (hcall : Shifts call argument days)
    (hnow : now.date.IsValid) (h : Date.DaysAfter days.toInt now.date e) :
    (handler (m := ReaderM Instant) call).run now =
      if e.IsValid then .ok e.iso
      else .error (call.error (.outOfRange argument .dateOutsideCalendar)) := by
  have hread : ReaderT.run (MonadClock.now : ReaderM Instant Instant) now = pure now := rfl
  simp only [handler, offset_eq_ok_iff.mpr hcall, ReaderT.run_bind, hread, pure_bind,
    shifted?_eq hnow h]
  by_cases he : e.IsValid
  · rw [if_pos he, if_pos he]
    rfl
  · rw [if_neg he, if_neg he]
    rfl

/-- Moving the moved date again is to move by both offsets at once. -/
theorem run_again {now now' : Instant} (h : Date.DaysAfter days.toInt now.date now'.date)
    (hnow : now.date.IsValid) (hnow' : now'.date.IsValid) {call' call'' : Call} {argument' argument'' : Text}
    {days' days'' : Int64} (hcall' : Shifts call' argument' days')
    (hcall'' : Shifts call'' argument'' days'') (hsum : days''.toInt = days.toInt + days'.toInt)
    (t : Text) : (handler (m := ReaderM Instant) call').run now' = .ok t ↔
      (handler (m := ReaderM Instant) call'').run now = .ok t := by
  obtain ⟨e, hagain⟩ : ∃ e, Date.DaysAfter days'.toInt now'.date e :=
    ⟨_, (Date.daysAfter_iff h.1).mpr rfl⟩
  have htogether := h.add (Date.isValid_iff.mp hnow).1 hagain
  rw [← hsum] at htogether
  rw [run_handler hcall' hnow' hagain, run_handler hcall'' hnow htogether]
  split
  · exact Iff.rfl
  · constructor <;> (intro h; contradiction)

/-- The moved date is the one day that is so many days away, written without the time of the clock,
and a call fails if and only if the calendar does not have that day. No offset beyond the longest
duration leads to a day it has. Moving the moved date again is to move by both offsets at once, and
a greater offset leads to a later day. -/
theorem shift_exact (hcall : Shifts call argument days) {d : Date} (hd : d.IsValid) :
    ∃ e, (∀ e', Date.DaysAfter days.toInt d e' ↔ e' = e) ∧
      (∀ now : Instant, now.date = d → (handler (m := ReaderM Instant) call).run now =
        if e.IsValid then .ok e.iso
        else .error (call.error (.outOfRange argument .dateOutsideCalendar))) ∧
      (Date.longestDuration < days.toInt.natAbs → ¬ e.IsValid) ∧
      (∀ (days' : Int64) (e' : Date), days < days' → Date.DaysAfter days'.toInt d e' →
        e.Before e') ∧
      ∀ call' argument' days' call'' argument'' days'', Shifts call' argument' days' →
        Shifts call'' argument'' days'' → days''.toInt = days.toInt + days'.toInt →
        ∀ now now' : Instant, now.date = d → e.IsValid → now'.date = e → ∀ t,
          (handler (m := ReaderM Instant) call').run now' = .ok t ↔
            (handler (m := ReaderM Instant) call'').run now = .ok t := by
  have hday := (Date.isValid_iff.mp hd).1
  have hone (e' : Date) := Date.daysAfter_iff (n := days.toInt) (e := e') hday
  have hafter := (hone _).mpr rfl
  refine ⟨_, hone, ?_, ?_, ?_, ?_⟩
  · rintro now rfl
    exact run_handler hcall hd hafter
  · intro hlong he
    exact absurd (hafter.natAbs_le hd he) (Nat.not_le.mpr hlong)
  · intro days' e' hlt hafter'
    exact hafter.before hday hafter' (Int64.lt_iff_toInt_lt.mp hlt)
  · intro call' argument' days' call'' argument'' days'' hcall' hcall'' hsum now now' hnow he hnow'
    subst hnow
    exact run_again (hnow' ▸ hafter) hd (hnow' ▸ he) hcall' hcall'' hsum

end

/-- The day before, once in a year of a century that is no leap year and once at the first day. -/
theorem shift_exact_of_yesterday :
    Shifts ⟨⟨[], [], [], ["-1".toList], ⟨false, 0⟩⟩, [], 0⟩ "-1".toList (-1) ∧
      Date.IsValid ⟨1900, 3, 1⟩ ∧ Date.IsValid ⟨-262143, 1, 1⟩ ∧
      (∀ now : Instant, now.date = ⟨1900, 3, 1⟩ → (handler (m := ReaderM Instant)
        ⟨⟨[], [], [], ["-1".toList], ⟨false, 0⟩⟩, [], 0⟩).run now = .ok "1900-02-28".toList) ∧
      ∀ now : Instant, now.date = ⟨-262143, 1, 1⟩ → (handler (m := ReaderM Instant)
        ⟨⟨[], [], [], ["-1".toList], ⟨false, 0⟩⟩, [], 0⟩).run now =
          .error ⟨[], .outOfRange "-1".toList .dateOutsideCalendar⟩ := by
  have hcall : Shifts ⟨⟨[], [], [], ["-1".toList], ⟨false, 0⟩⟩, [], 0⟩ "-1".toList (-1) :=
    offset_eq_ok_iff.mp rfl
  have hcentury : Date.IsValid ⟨1900, 3, 1⟩ := by decide
  have hfirst : Date.IsValid ⟨-262143, 1, 1⟩ := by decide
  refine ⟨hcall, hcentury, hfirst, ?_, ?_⟩
  · obtain ⟨e, hone, hrun, -⟩ := shift_exact hcall hcentury
    have hbefore : Date.DaysAfter (-1) ⟨1900, 3, 1⟩ ⟨1900, 2, 28⟩ :=
      ⟨⟨by decide, by decide, by decide, by decide⟩, rfl⟩
    rw [← (hone _).mp hbefore, if_pos (by decide)] at hrun
    exact hrun
  · obtain ⟨e, hone, hrun, -⟩ := shift_exact hcall hfirst
    have hbefore : Date.DaysAfter (-1) ⟨-262143, 1, 1⟩ ⟨-262144, 12, 31⟩ :=
      ⟨⟨by decide, by decide, by decide, by decide⟩, rfl⟩
    rw [← (hone _).mp hbefore, if_neg (by decide)] at hrun
    exact hrun

end ShiftedDate
end Placeholders
