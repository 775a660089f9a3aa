import Vouch.Lib.FixedWidth

/-!
# The Gregorian calendar

Days are numbered from the first of January of the year 0, in both directions, and every day has a
date in the calendar as it is today.

* `yearStart` — the number of the first day of a year; `yearOf` — the year of a day, by a guess that
  is off by one at most (`yearStart_yearOf`).
* `place` — the place of a number in a row of intervals of given lengths; months are the intervals
  of a year.
* `dateOf` — the date of a day.
* `lt_iff_date` — **days come in the order of their dates**: year first, then month, then day.
* `clockOf` — the hour, the minute and the second, which come in that order, too.
-/

namespace Calendar

open FixedWidth

/-! ## Years -/

/-- A year with a day more. -/
def isLeap (year : Int) : Bool := year % 4 == 0 && (year % 100 != 0 || year % 400 == 0)

/-- The first day of a year. -/
def yearStart (year : Int) : Int :=
  365 * year + (year + 3) / 4 - (year + 99) / 100 + (year + 399) / 400

/-- The year of a day. -/
def yearOf (day : Int) : Int :=
  let guess := day * 400 / 146097
  if day < yearStart guess then guess - 1
  else if yearStart (guess + 1) ≤ day then guess + 1
  else guess

/-- How long a year is. -/
theorem yearStart_succ (year : Int) :
    yearStart (year + 1) = yearStart year + if isLeap year then 366 else 365 := by
  unfold yearStart isLeap
  by_cases h4 : year % 4 = 0
  · by_cases h100 : year % 100 = 0
    · by_cases h400 : year % 400 = 0
      · simp only [h4, h400, beq_self_eq_true, Bool.or_true, Bool.and_true, if_true]
        omega
      · simp only [h4, h100, h400, beq_self_eq_true, bne_self_eq_false, Bool.false_or,
          Bool.true_and, beq_iff_eq, if_false]
        omega
    · have hne : (year % 100 != 0) = true := by simpa using h100
      simp only [h4, hne, beq_self_eq_true, Bool.true_or, Bool.and_true, if_true]
      omega
  · have hne : (year % 4 == 0) = false := by simpa using h4
    simp only [hne, Bool.false_and, Bool.false_eq_true, if_false]
    omega

theorem yearStart_mono {a b : Int} (h : a ≤ b) : yearStart a ≤ yearStart b := by
  unfold yearStart
  omega

/-- A day lies in its year. -/
theorem yearStart_yearOf (day : Int) :
    yearStart (yearOf day) ≤ day ∧ day < yearStart (yearOf day + 1) := by
  have hlow : yearStart (day * 400 / 146097 - 1) ≤ day := by
    unfold yearStart
    omega
  have hhigh : day < yearStart (day * 400 / 146097 + 1 + 1) := by
    unfold yearStart
    omega
  unfold yearOf
  dsimp only
  split
  · rename_i h
    rw [Int.sub_add_cancel]
    exact ⟨hlow, h⟩
  · split
    · rename_i h
      exact ⟨h, hhigh⟩
    · rename_i h h'
      exact ⟨Int.not_lt.1 h, Int.not_le.1 h'⟩

/-- The day of the year, counted from zero. -/
def dayOfYear (day : Int) : Nat := (day - yearStart (yearOf day)).toNat

theorem dayOfYear_lt (day : Int) : dayOfYear day < if isLeap (yearOf day) then 366 else 365 := by
  have hyear := yearStart_yearOf day
  rw [yearStart_succ] at hyear
  unfold dayOfYear
  split at hyear
  · rename_i h
    rw [if_pos h]
    omega
  · rename_i h
    rw [if_neg h]
    omega

/-- Days come in the order of their years, and within a year in the order of its days. -/
theorem lt_iff_year {a b : Int} :
    a < b ↔ yearOf a < yearOf b ∨ (yearOf a = yearOf b ∧ dayOfYear a < dayOfYear b) := by
  have ha := yearStart_yearOf a
  have hb := yearStart_yearOf b
  rcases Int.lt_trichotomy (yearOf a) (yearOf b) with h | h | h
  · have hmono := yearStart_mono (a := yearOf a + 1) (b := yearOf b) (by omega)
    exact ⟨fun _ => .inl h, fun _ => by omega⟩
  · unfold dayOfYear
    rw [h] at ha ⊢
    omega
  · have hmono := yearStart_mono (a := yearOf b + 1) (b := yearOf a) (by omega)
    exact ⟨fun _ => by omega, fun _ => by omega⟩

/-! ## Months -/

/-- The interval a number falls in, and where it stands there. -/
def place : List Nat → Nat → Nat × Nat
  | [], n => (0, n)
  | length :: lengths, n =>
    if n < length then (0, n)
    else ((place lengths (n - length)).1 + 1, (place lengths (n - length)).2)

/-- Numbers come in the order of their intervals, and within one in the order of their places. -/
theorem lt_iff_place {lengths : List Nat} {a b : Nat} :
    a < b ↔ (place lengths a).1 < (place lengths b).1 ∨
      ((place lengths a).1 = (place lengths b).1 ∧
        (place lengths a).2 < (place lengths b).2) := by
  induction lengths generalizing a b with
  | nil => simp [place]
  | cons length lengths ih =>
    by_cases ha : a < length
    · by_cases hb : b < length
      · simp [place, ha, hb]
      · simp only [place, if_pos ha, if_neg hb]
        omega
    · by_cases hb : b < length
      · simp only [place, if_neg ha, if_pos hb]
        omega
      · have hsub : a < b ↔ a - length < b - length := by omega
        simp only [place, if_neg ha, if_neg hb]
        rw [hsub, ih (a := a - length) (b := b - length)]
        omega

/-- How long all the intervals are. -/
def total : List Nat → Nat
  | [] => 0
  | length :: lengths => length + total lengths

/-- A number within them all falls in one of them. -/
theorem place_of_lt_total {lengths : List Nat} {n : Nat} (h : n < total lengths) :
    (place lengths n).1 < lengths.length ∧ ∃ length ∈ lengths, (place lengths n).2 < length := by
  induction lengths generalizing n with
  | nil => simp [total] at h
  | cons length lengths ih =>
    by_cases hn : n < length
    · simp [place, hn]
    · rw [total] at h
      obtain ⟨hplace, other, hother, hlt⟩ := ih (n := n - length) (by omega)
      simp only [place, if_neg hn, List.length_cons]
      exact ⟨by omega, other, List.mem_cons_of_mem _ hother, hlt⟩

/-- The lengths of the months of a year. -/
def monthLengths (leap : Bool) : List Nat :=
  [31, if leap then 29 else 28, 31, 30, 31, 30, 31, 31, 30, 31, 30, 31]

/-! ## Dates -/

/-- A date; months and days are counted from one. -/
structure Date where
  year : Int
  month : Nat
  day : Nat
deriving DecidableEq, Repr

/-- The month and the day. -/
def Date.inYear (date : Date) : List Nat := [date.month, date.day]

/-- The date of a day. -/
def dateOf (day : Int) : Date :=
  let inYear := place (monthLengths (isLeap (yearOf day))) (dayOfYear day)
  ⟨yearOf day, inYear.1 + 1, inYear.2 + 1⟩

/-- The last day of February of a leap year, and the first day of the year 1970. -/
example : dateOf 730544 = ⟨2000, 2, 29⟩ ∧ dateOf 719528 = ⟨1970, 1, 1⟩ := by decide

theorem month_day_le (day : Int) : (dateOf day).month ≤ 12 ∧ (dateOf day).day ≤ 31 := by
  have htotal : dayOfYear day < total (monthLengths (isLeap (yearOf day))) := by
    refine Nat.lt_of_lt_of_eq (dayOfYear_lt day) ?_
    cases isLeap (yearOf day) <;> rfl
  obtain ⟨hmonth, length, hlength, hday⟩ := place_of_lt_total htotal
  have hlong : length ≤ 31 := by
    revert hlength
    cases isLeap (yearOf day) <;> simp [monthLengths] <;> omega
  have htwelve : (monthLengths (isLeap (yearOf day))).length = 12 := rfl
  constructor
  · exact Nat.lt_of_lt_of_eq hmonth htwelve
  · exact Nat.le_trans hday hlong

/-- **Days come in the order of their dates.** -/
theorem lt_iff_date {a b : Int} :
    a < b ↔ (dateOf a).year < (dateOf b).year ∨
      ((dateOf a).year = (dateOf b).year ∧ before (dateOf a).inYear (dateOf b).inYear) := by
  rw [lt_iff_year]
  have hyear : ∀ day, (dateOf day).year = yearOf day := fun _ => rfl
  simp only [hyear]
  refine or_congr_right (and_congr_right fun heq => ?_)
  simp only [Date.inYear, dateOf, heq, before, and_false, or_false, Nat.add_lt_add_iff_right,
    Nat.add_right_cancel_iff]
  exact lt_iff_place

/-- Different days have different dates. -/
theorem eq_iff_date {a b : Int} :
    a = b ↔ (dateOf a).year = (dateOf b).year ∧ (dateOf a).inYear = (dateOf b).inYear := by
  constructor
  · rintro rfl
    exact ⟨rfl, rfl⟩
  · rintro ⟨hyear, hrest⟩
    have hab := lt_iff_date (a := a) (b := b)
    have hba := lt_iff_date (a := b) (b := a)
    rw [hyear, hrest] at hab hba
    simp only [Int.lt_irrefl, before_irrefl, and_false, or_false, iff_false] at hab hba
    omega

/-! ## Times of day -/

/-- The hour, the minute and the second of a second of the day. -/
def clockOf (second : Nat) : List Nat := [second / 3600, second / 60 % 60, second % 60]

theorem lt_iff_clock {a b : Nat} : a < b ↔ before (clockOf a) (clockOf b) := by
  have ha : a / 3600 = a / 60 / 60 := by rw [Nat.div_div_eq_div_mul]
  have hb : b / 3600 = b / 60 / 60 := by rw [Nat.div_div_eq_div_mul]
  simp only [clockOf, before, ha, hb, and_false, or_false]
  omega

end Calendar
