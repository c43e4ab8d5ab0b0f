import Mathlib.Algebra.BigOperators.Group.List.Basic
import Mathlib.Algebra.GroupWithZero.Nat
import Mathlib.Data.List.GetD
import Mathlib.Logic.Function.Iterate
import Placeholders.Calendar.Date

/-!
Days of the extended Gregorian calendar and their numbers. The calendar itself is given by the
lengths of its months: they say which day follows a day. The number of a day grows by one from each
day to the next, and every number belongs to one day.
-/

namespace Placeholders

def yearLength (year : Int) : Nat := if isLeapYear year then 366 else 365

theorem sum_monthLengths (year : Int) : (monthLengths year).sum = yearLength year := by
  rw [monthLengths, yearLength]
  cases isLeapYear year <;> rfl

theorem isLeapYear_iff {year : Int} :
    isLeapYear year ↔ year % 4 = 0 ∧ (year % 100 ≠ 0 ∨ year % 400 = 0) := by
  simp [isLeapYear]

theorem daysBeforeYear_succ (year : Int) :
    daysBeforeYear (year + 1) = daysBeforeYear year + yearLength year := by
  unfold daysBeforeYear yearLength
  split
  · next h =>
    rw [isLeapYear_iff] at h
    omega
  · next h =>
    rw [isLeapYear_iff] at h
    omega

theorem daysBeforeYear_mono {y y' : Int} (h : y ≤ y') : daysBeforeYear y ≤ daysBeforeYear y' := by
  unfold daysBeforeYear
  omega

/-- Four centuries have 146097 days. Counted in parts of 1 / 400 of a day, a year begins at most 591
parts before the multiple of the mean year and at most 300 parts after it. -/
theorem daysBeforeYear_bounds (k : Int) :
    146097 * k - 591 ≤ 400 * daysBeforeYear (k + 1) ∧
      400 * daysBeforeYear (k + 1) ≤ 146097 * k + 300 := by
  obtain ⟨q, c, u, v, hk, hc, hu, hv⟩ : ∃ q c u v : Int, k = 400 * q + 100 * c + 4 * u + v ∧
      (0 ≤ c ∧ c < 4) ∧ (0 ≤ u ∧ u < 25) ∧ (0 ≤ v ∧ v < 4) :=
    ⟨k / 400, k % 400 / 100, k % 100 / 4, k % 4, by omega, by omega, by omega, by omega⟩
  have hfour : k / 4 = 100 * q + 25 * c + u := by omega
  have hcentury : k / 100 = 4 * q + c := by omega
  have hcycle : k / 400 = q := by omega
  rw [daysBeforeYear, Int.add_sub_cancel, hfour, hcentury, hcycle]
  omega

theorem yearOfDay_spec (n : Int) :
    daysBeforeYear (yearOfDay n) ≤ n ∧ n < daysBeforeYear (yearOfDay n + 1) := by
  unfold yearOfDay
  obtain ⟨k, hk⟩ : ∃ k, k = (400 * n + 591) / 146097 := ⟨_, rfl⟩
  have hbefore := (daysBeforeYear_bounds (k - 1)).2
  have hafter := (daysBeforeYear_bounds (k + 1)).1
  rw [Int.sub_add_cancel] at hbefore
  rw [← hk]
  dsimp only
  split
  · next h =>
    rw [Int.add_sub_cancel]
    exact ⟨by omega, h⟩
  · next h => exact ⟨Int.not_lt.mp h, by omega⟩

theorem yearOfDay_eq {year n : Int} (hle : daysBeforeYear year ≤ n)
    (hlt : n < daysBeforeYear (year + 1)) : yearOfDay n = year := by
  obtain ⟨hspec, hspec'⟩ := yearOfDay_spec n
  rcases Int.lt_trichotomy (yearOfDay n) year with h | h | h
  · have hmono := daysBeforeYear_mono (Int.add_one_le_of_lt h)
    omega
  · exact h
  · have hmono := daysBeforeYear_mono (Int.add_one_le_of_lt h)
    omega

namespace Date

theorem sum_take_succ (lengths : List Nat) (j : Nat) :
    (lengths.take (j + 1)).sum = (lengths.take j).sum + lengths.getD j 0 := by
  by_cases h : j < lengths.length
  · rw [List.sum_take_succ _ _ h, List.getD_eq_getElem _ _ h]
  · have hle := Nat.not_lt.mp h
    rw [List.take_of_length_le hle, List.take_of_length_le (Nat.le_succ_of_le hle),
      List.getD_eq_default _ _ hle, Nat.add_zero]

theorem monthAndDay_eq (month : Nat) {lengths : List Nat} {j n : Nat} (h : n < lengths.getD j 0) :
    monthAndDay month lengths ((lengths.take j).sum + n) = (month + j, n + 1) := by
  induction lengths generalizing month j with
  | nil =>
      rw [List.getD_nil] at h
      exact absurd h (Nat.not_lt_zero n)
  | cons length lengths ih =>
      cases j with
      | zero =>
          rw [List.getD_cons_zero] at h
          rw [List.take_zero, List.sum_nil, Nat.zero_add, monthAndDay, if_pos h]
          rfl
      | succ j =>
          rw [List.getD_cons_succ] at h
          have hlater : ¬ length + (lengths.take j).sum + n < length := by omega
          rw [List.take_succ_cons, List.sum_cons, monthAndDay, if_neg hlater, Nat.add_assoc,
            Nat.add_sub_cancel_left, ih (month + 1) h, Nat.add_assoc, Nat.add_comm 1 j]

theorem exists_month {lengths : List Nat} {n : Nat} (h : n < lengths.sum) :
    ∃ j k, j < lengths.length ∧ k < lengths.getD j 0 ∧ n = (lengths.take j).sum + k := by
  induction lengths generalizing n with
  | nil => exact absurd h (Nat.not_lt_zero n)
  | cons length lengths ih =>
      by_cases hn : n < length
      · exact ⟨0, n, Nat.zero_lt_succ _, hn, (Nat.zero_add n).symm⟩
      · rw [List.sum_cons] at h
        obtain ⟨j, k, hj, hk, heq⟩ := ih (n := n - length) (by omega)
        refine ⟨j + 1, k, Nat.succ_lt_succ hj, hk, ?_⟩
        rw [List.take_succ_cons, List.sum_cons]
        omega

def monthLength (d : Date) : Nat := (monthLengths d.year).getD (d.month - 1) 0

/-- A day of the calendar, extended to all years. -/
structure IsDay (d : Date) : Prop where
  one_le_month : 1 ≤ d.month
  month_le : d.month ≤ 12
  one_le_day : 1 ≤ d.day
  day_le : d.day ≤ d.monthLength

theorem isValid_iff {d : Date} :
    d.IsValid ↔ d.IsDay ∧ firstYear ≤ d.year ∧ d.year ≤ lastYear := by
  constructor
  · rintro ⟨hfirst, hlast, hmonth, hmonth', hday, hday'⟩
    exact ⟨⟨hmonth, hmonth', hday, hday'⟩, hfirst, hlast⟩
  · rintro ⟨⟨hmonth, hmonth', hday, hday'⟩, hfirst, hlast⟩
    exact ⟨hfirst, hlast, hmonth, hmonth', hday, hday'⟩

theorem isDay_mk {year : Int} {j k : Nat} :
    IsDay ⟨year, j + 1, k + 1⟩ ↔ j < 12 ∧ k < (monthLengths year).getD j 0 := by
  constructor
  · intro h
    exact ⟨h.month_le, h.day_le⟩
  · intro h
    exact ⟨Nat.succ_pos j, h.1, Nat.succ_pos k, h.2⟩

theorem IsDay.exists_mk {d : Date} (h : d.IsDay) : ∃ year j k, d = ⟨year, j + 1, k + 1⟩ :=
  ⟨d.year, d.month - 1, d.day - 1, by
    rw [Nat.sub_add_cancel h.one_le_month, Nat.sub_add_cancel h.one_le_day]⟩

theorem toDays_mk (year : Int) (j k : Nat) : toDays ⟨year, j + 1, k + 1⟩ =
    daysBeforeYear year + (((monthLengths year).take j).sum + k : Nat) := by
  rw [toDays, daysBeforeMonth, ← List.sum_eq_foldl, Nat.add_sub_cancel]
  push_cast
  omega

theorem toDays_bounds {d : Date} (h : d.IsDay) :
    daysBeforeYear d.year ≤ d.toDays ∧ d.toDays < daysBeforeYear (d.year + 1) := by
  obtain ⟨year, j, k, rfl⟩ := h.exists_mk
  obtain ⟨-, hk⟩ := isDay_mk.mp h
  have hmonth := sum_take_succ (monthLengths year) j
  have hyear := List.sum_take_add_sum_drop (monthLengths year) (j + 1)
  rw [sum_monthLengths] at hyear
  rw [toDays_mk]
  dsimp only
  rw [daysBeforeYear_succ]
  omega

theorem ofDays_toDays {d : Date} (h : d.IsDay) : ofDays d.toDays = d := by
  obtain ⟨hle, hlt⟩ := toDays_bounds h
  obtain ⟨year, j, k, rfl⟩ := h.exists_mk
  obtain ⟨-, hk⟩ := isDay_mk.mp h
  rw [ofDays, yearOfDay_eq hle hlt, toDays_mk]
  simp only [add_sub_cancel_left, Int.toNat_natCast, monthAndDay_eq 1 hk, Nat.add_comm 1 j]

theorem toDays_inj {d e : Date} (hd : d.IsDay) (he : e.IsDay) (h : d.toDays = e.toDays) :
    d = e := by
  rw [← ofDays_toDays hd, h, ofDays_toDays he]

theorem ofDays_spec (n : Int) : (ofDays n).IsDay ∧ (ofDays n).toDays = n := by
  obtain ⟨hle, hlt⟩ := yearOfDay_spec n
  have hrest : (n - daysBeforeYear (yearOfDay n)).toNat < (monthLengths (yearOfDay n)).sum := by
    rw [sum_monthLengths]
    rw [daysBeforeYear_succ] at hlt
    omega
  obtain ⟨j, k, hj, hk, hn⟩ := exists_month hrest
  have hdate : ofDays n = ⟨yearOfDay n, j + 1, k + 1⟩ := by
    rw [ofDays]
    simp only [hn, monthAndDay_eq 1 hk, Nat.add_comm 1 j]
  rw [hdate, toDays_mk]
  exact ⟨isDay_mk.mpr ⟨hj, hk⟩, by omega⟩

def next (d : Date) : Date :=
  if d.day < d.monthLength then { d with day := d.day + 1 }
  else if d.month < 12 then ⟨d.year, d.month + 1, 1⟩
  else ⟨d.year + 1, 1, 1⟩

theorem monthLength_pos (year : Int) {j : Nat} (h : j < 12) : 0 < (monthLengths year).getD j 0 := by
  have hall : ∀ leap : Bool, ∀ j < 12, 0 < [31, if leap then 29 else 28, 31, 30, 31, 30, 31, 31,
      30, 31, 30, 31].getD j 0 := by decide
  exact hall (isLeapYear year) j h

theorem next_spec {d : Date} (h : d.IsDay) : d.next.IsDay ∧ d.next.toDays = d.toDays + 1 := by
  obtain ⟨year, j, k, rfl⟩ := h.exists_mk
  obtain ⟨hj, hk⟩ := isDay_mk.mp h
  simp only [next, monthLength, Nat.add_sub_cancel]
  split
  · next hwithin =>
    rw [isDay_mk, toDays_mk, toDays_mk]
    exact ⟨⟨hj, hwithin⟩, by omega⟩
  · next hlast =>
    have hsum := sum_take_succ (monthLengths year) j
    split
    · next hinside =>
      have hj' : j + 1 < 12 := hinside
      rw [isDay_mk (k := 0), toDays_mk year (j + 1) 0, toDays_mk]
      exact ⟨⟨hj', monthLength_pos year hj'⟩, by omega⟩
    · next hdecember =>
      obtain rfl : j = 11 := by omega
      have hyear : ((monthLengths year).take (11 + 1)).sum = yearLength year :=
        sum_monthLengths year
      have hjanuary : 0 < 12 := by decide
      rw [isDay_mk (j := 0) (k := 0), toDays_mk (year + 1) 0 0, toDays_mk, daysBeforeYear_succ]
      refine ⟨⟨hjanuary, monthLength_pos (year + 1) hjanuary⟩, ?_⟩
      rw [List.take_zero, List.sum_nil]
      omega

theorem iterate_next_spec {d : Date} (h : d.IsDay) (k : Nat) :
    (next^[k] d).IsDay ∧ (next^[k] d).toDays = d.toDays + k := by
  induction k with
  | zero => exact ⟨h, (Int.add_zero d.toDays).symm⟩
  | succ k ih =>
      obtain ⟨hday, hnumber⟩ := next_spec ih.1
      rw [Function.iterate_succ_apply']
      exact ⟨hday, by omega⟩

/-- `e` is the day that comes `n` days after `d`, or before it if `n` is negative. -/
def DaysAfter (n : Int) (d e : Date) : Prop := e.IsDay ∧ next^[n.toNat] d = next^[(-n).toNat] e

theorem daysAfter_iff {d : Date} (h : d.IsDay) {n : Int} {e : Date} :
    DaysAfter n d e ↔ e = ofDays (d.toDays + n) := by
  obtain ⟨hday, hnumber⟩ := iterate_next_spec h n.toNat
  constructor
  · intro hafter
    obtain ⟨he, hmeet⟩ := hafter
    obtain ⟨-, hnumber'⟩ := iterate_next_spec he (-n).toNat
    rw [hmeet] at hnumber
    have heq : e.toDays = d.toDays + n := by omega
    rw [← heq, ofDays_toDays he]
  · rintro rfl
    obtain ⟨he, hsum⟩ := ofDays_spec (d.toDays + n)
    obtain ⟨hday', hnumber'⟩ := iterate_next_spec he (-n).toNat
    exact ⟨he, toDays_inj hday hday' (by omega)⟩

theorem DaysAfter.add {d e f : Date} {m n : Int} (hd : d.IsDay) (h : DaysAfter m d e)
    (h' : DaysAfter n e f) : DaysAfter (m + n) d f := by
  have hnumber := (ofDays_spec (d.toDays + m)).2
  rw [← (daysAfter_iff hd).mp h] at hnumber
  rw [daysAfter_iff h.1, hnumber, Int.add_assoc] at h'
  exact (daysAfter_iff hd).mpr h'

/-- The order of days by year, month and day of the month. -/
def Before (d e : Date) : Prop :=
  d.year < e.year ∨ d.year = e.year ∧ (d.month < e.month ∨ d.month = e.month ∧ d.day < e.day)

theorem Before.trans {d e f : Date} (h : d.Before e) (h' : e.Before f) : d.Before f := by
  unfold Before at *
  omega

theorem before_next (d : Date) : d.Before d.next := by
  rw [next]
  split
  · exact .inr ⟨rfl, .inr ⟨rfl, Nat.lt_succ_self d.day⟩⟩
  · split
    · exact .inr ⟨rfl, .inl (Nat.lt_succ_self d.month)⟩
    · exact .inl (Int.lt_succ d.year)

theorem before_iterate_next (d : Date) (k : Nat) : d.Before (next^[k + 1] d) := by
  induction k with
  | zero => exact before_next d
  | succ k ih =>
      rw [Function.iterate_succ_apply']
      exact ih.trans (before_next _)

/-- A greater offset leads to a later day. -/
theorem DaysAfter.before {d e e' : Date} {n n' : Int} (hd : d.IsDay) (h : DaysAfter n d e)
    (h' : DaysAfter n' d e') (hlt : n < n') : e.Before e' := by
  obtain ⟨k, hk⟩ : ∃ k : Nat, n' = n + (k + 1) := ⟨(n' - n - 1).toNat, by omega⟩
  obtain ⟨-, hnumber⟩ := ofDays_spec (d.toDays + n)
  obtain ⟨-, hnumber'⟩ := ofDays_spec (d.toDays + n')
  rw [← (daysAfter_iff hd).mp h] at hnumber
  rw [← (daysAfter_iff hd).mp h'] at hnumber'
  obtain ⟨hday, hlater⟩ := iterate_next_spec h.1 (k + 1)
  rw [toDays_inj h'.1 hday (by omega)]
  exact before_iterate_next e k

end Date
end Placeholders
