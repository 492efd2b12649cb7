/-
  Dates and their numbers.

  1. *Program.*  `dayNumber` counts the days up to a date: those of the years before, those of the
     months before, and those of the month.  `dateOfDay` goes the other way in two loops: it takes
     whole years off a number of days, and then whole months.

  2. *Specification.*  A date is a month of the twelve and a day that this month has (`IsDate`,
     `lastDay`).  From 1970 on, dates and day numbers belong together one to one and in the same
     order, and in every year the date after a date (`dayAfter`) has the next number.

  3. *The crux.*  A date is a number in mixed digits.  The days before a year grow from one year to
     the next by the length of the year (`daysBeforeYear_succ`), and the days before a month grow by
     the last day of the month until they fill the year (`daysBeforeMonth_succ`,
     `daysBeforeMonth_thirteen`).  So an earlier date has a smaller number, whatever its smaller
     digits are (`daysBefore_lt`), and what the loops leave is the one date with their number.

  4. *Eras.*  The Gregorian calendar repeats itself after 400 years.  `eraDayNumber` counts in such
     eras and in years that begin in March, where the leap day comes last; it is the same number for
     all fields (`dayNumber_eq_era`).
-/
import Mathlib.Order.Monotone.Basic
import Mathlib.Tactic.IntervalCases
import Userland.Calendar

namespace Userland.Calendar

/-! ## Dates -/

/-- The last day of a month.  Every fourth year has a leap day, of the full centuries only every
fourth. -/
def lastDay (year month : Nat) : Nat :=
  match month with
  | 2 => if 4 ∣ year ∧ (100 ∣ year → 400 ∣ year) then 29 else 28
  | 4 | 6 | 9 | 11 => 30
  | _ => 31

/-- The calendar has this date. -/
structure IsDate (year month day : Nat) : Prop where
  month_pos : 1 ≤ month
  month_le : month ≤ 12
  day_pos : 1 ≤ day
  day_le : day ≤ lastDay year month

theorem isDate_iff {year month day : Nat} :
    1 ≤ month ∧ month ≤ 12 ∧ 1 ≤ day ∧ day ≤ lastDay year month ↔ IsDate year month day :=
  ⟨fun ⟨h₁, h₂, h₃, h₄⟩ => ⟨h₁, h₂, h₃, h₄⟩, fun h => ⟨h.1, h.2, h.3, h.4⟩⟩

instance (year month day : Nat) : Decidable (IsDate year month day) :=
  decidable_of_iff _ isDate_iff

/-- The date after a date. -/
def dayAfter (year month day : Nat) : Nat × Nat × Nat :=
  if day < lastDay year month then (year, month, day + 1)
  else if month < 12 then (year, month + 1, 1)
  else (year + 1, 1, 1)

/-- The first date comes before the second one. -/
def Earlier (year month day year' month' day' : Nat) : Prop :=
  year < year' ∨ year = year' ∧ (month < month' ∨ month = month' ∧ day < day')

example : dayAfter 2000 2 28 = (2000, 2, 29) ∧ dayAfter 1900 2 28 = (1900, 3, 1) := by decide

variable {year month day year' month' day' : Nat}

theorem lastDay_pos (year month : Nat) : 1 ≤ lastDay year month := by
  unfold lastDay
  split
  · split <;> decide
  all_goals decide

/-- The day after a date is a date. -/
theorem IsDate.dayAfter (h : IsDate year month day)
    (hnext : dayAfter year month day = (year', month', day')) : IsDate year' month' day' := by
  obtain ⟨hmonth, hmonth', hday, -⟩ := h
  unfold Calendar.dayAfter at hnext
  split at hnext
  · next hroom =>
    cases hnext
    exact ⟨hmonth, hmonth', by omega, hroom⟩
  · split at hnext
    · next hmore =>
      cases hnext
      exact ⟨by omega, hmore, le_refl 1, lastDay_pos year (month + 1)⟩
    · cases hnext
      exact ⟨le_refl 1, by omega, le_refl 1, lastDay_pos (year + 1) 1⟩

/-! ## Years -/

/-- Every fourth year, but of the hundredth ones only the four hundredth. -/
theorem isLeap_iff : isLeap year = true ↔ 4 ∣ year ∧ (100 ∣ year → 400 ∣ year) := by
  simp only [isLeap, Bool.or_eq_true, Bool.and_eq_true, decide_eq_true_eq]
  omega

/-- Rounding up to a multiple goes on by one after each multiple. -/
theorem div_succ (year : Nat) {d : Nat} (hd : 0 < d) :
    (year + 1 + (d - 1)) / d = (year + (d - 1)) / d + (if d ∣ year then 1 else 0) := by
  have hshift : year + 1 + (d - 1) = year + d := by omega
  have hback : year + (d - 1) + 1 = year + d := by omega
  have hdvd : d ∣ year + d ↔ d ∣ year := (Nat.dvd_add_iff_left (dvd_refl d)).symm
  rw [hshift, ← hback, Nat.succ_div, hback, if_congr hdvd rfl rfl]

/-- The next year begins when all days of this one are over. -/
theorem daysBeforeYear_succ (year : Nat) :
    daysBeforeYear (year + 1) = daysBeforeYear year + yearLength year := by
  have h4 := div_succ year (by decide : 0 < 4)
  have h100 := div_succ year (by decide : 0 < 100)
  have h400 := div_succ year (by decide : 0 < 400)
  have hroom : (year + 99) / 100 ≤ 365 * year + (year + 3) / 4 := by omega
  have hlength : yearLength year + (if 100 ∣ year then 1 else 0) =
      365 + (if 4 ∣ year then 1 else 0) + (if 400 ∣ year then 1 else 0) := by
    rw [yearLength, if_congr isLeap_iff rfl rfl]
    grind
  simp only [Nat.reduceSub] at h4 h100 h400
  rw [daysBeforeYear, daysBeforeYear, h4, h100, h400]
  omega

/-- Later years begin later. -/
theorem daysBeforeYear_mono : Monotone daysBeforeYear :=
  monotone_nat_of_le_succ fun year => by
    rw [daysBeforeYear_succ]
    exact Nat.le_add_right _ _

/-! ## Months -/

/-- The table of the months says how many days they have. -/
theorem getElem?_monthLengths (year : Nat) (hpos : 1 ≤ month) (hle : month ≤ 12) :
    (monthLengths (isLeap year))[month - 1]? = some (lastDay year month) := by
  have hfebruary : (if isLeap year = true then 29 else 28) = lastDay year 2 := by
    rw [lastDay, if_congr isLeap_iff rfl rfl]
  interval_cases month <;> first | rfl | exact congrArg some hfebruary

/-- The table has the length of each month at its place. -/
theorem drop_monthLengths (year : Nat) (hpos : 1 ≤ month) (hle : month ≤ 12) :
    (monthLengths (isLeap year)).drop (month - 1) =
      lastDay year month :: (monthLengths (isLeap year)).drop month := by
  obtain ⟨hlt, hget⟩ := List.getElem?_eq_some_iff.mp (getElem?_monthLengths year hpos hle)
  rw [List.drop_eq_getElem_cons hlt, hget, Nat.sub_add_cancel hpos]

theorem daysBeforeMonth_one (year : Nat) : daysBeforeMonth year 1 = 0 := rfl

/-- The next month begins when all days of this one are over. -/
theorem daysBeforeMonth_succ (year : Nat) (hpos : 1 ≤ month) (hle : month ≤ 12) :
    daysBeforeMonth year (month + 1) = daysBeforeMonth year month + lastDay year month := by
  have hnext : month + 1 - 1 = month - 1 + 1 := by omega
  rw [daysBeforeMonth, hnext, List.take_add_one, getElem?_monthLengths year hpos hle,
    Option.toList_some, List.foldl_append]
  rfl

/-- The twelve months make up the year. -/
theorem daysBeforeMonth_thirteen (year : Nat) : daysBeforeMonth year 13 = yearLength year := by
  unfold daysBeforeMonth yearLength
  cases isLeap year <;> rfl

/-- Later months of a year begin later. -/
theorem daysBeforeMonth_le (year : Nat) (hpos : 1 ≤ month) (hle : month ≤ month')
    (hlast : month' ≤ 13) : daysBeforeMonth year month ≤ daysBeforeMonth year month' := by
  induction month', hle using Nat.le_induction with
  | base => exact le_refl _
  | succ month' hle ih =>
    have hstep := daysBeforeMonth_succ year (hpos.trans hle) (by omega)
    have hsofar := ih (by omega)
    omega

/-! ## The number of a date -/

/-- The days before a date, from the first of the year 0 on. -/
def daysBefore (year month day : Nat) : Nat :=
  daysBeforeYear year + daysBeforeMonth year month + (day - 1)

theorem daysBeforeYear_1970 : daysBeforeYear 1970 = 719528 := rfl

theorem daysBeforeYear_65536 : daysBeforeYear 65536 = 719528 + 23217004 := rfl

/-- The number of a date counts the days since the beginning of 1970. -/
theorem IsDate.dayNumber_eq (h : IsDate year month day) :
    dayNumber year month day = daysBefore year month day - daysBeforeYear 1970 := by
  obtain ⟨hmonth, hmonth', hday, -⟩ := h
  have hnearest : nearestMonth month = month := by
    unfold nearestMonth
    omega
  rw [dayNumber, hnearest, daysBefore]
  omega

/-- A date lies before the end of its month. -/
theorem IsDate.lt_month (h : IsDate year month day) :
    daysBeforeMonth year month + (day - 1) < daysBeforeMonth year (month + 1) := by
  obtain ⟨hmonth, hmonth', hday, hday'⟩ := h
  rw [daysBeforeMonth_succ year hmonth hmonth']
  omega

/-- A date lies before the end of its year. -/
theorem IsDate.lt_year (h : IsDate year month day) :
    daysBefore year month day < daysBeforeYear (year + 1) := by
  have hmonth := h.lt_month
  have hyear := daysBeforeMonth_le year (Nat.le_add_left 1 month)
    (Nat.succ_le_succ h.month_le) (le_refl 13)
  rw [daysBeforeMonth_thirteen] at hyear
  rw [daysBeforeYear_succ, daysBefore]
  omega

theorem daysBeforeYear_le (year month day : Nat) :
    daysBeforeYear year ≤ daysBefore year month day := by
  unfold daysBefore
  omega

/-- The larger unit decides: an earlier date has a smaller number. -/
theorem daysBefore_lt (h : IsDate year month day) (h' : IsDate year' month' day')
    (hlt : Earlier year month day year' month' day') :
    daysBefore year month day < daysBefore year' month' day' := by
  rcases hlt with hyear | ⟨rfl, hmonth | ⟨rfl, hday⟩⟩
  · calc daysBefore year month day
        < daysBeforeYear (year + 1) := h.lt_year
      _ ≤ daysBeforeYear year' := daysBeforeYear_mono hyear
      _ ≤ daysBefore year' month' day' := daysBeforeYear_le year' month' day'
  · have hend := h.lt_month
    have hnext := daysBeforeMonth_le year (Nat.le_add_left 1 month) hmonth
      (Nat.le_succ_of_le h'.month_le)
    unfold daysBefore
    omega
  · have hpos := h.day_pos
    unfold daysBefore
    omega

/-- Of two dates one is earlier, or they are the same. -/
theorem earlier_trichotomy (year month day year' month' day' : Nat) :
    Earlier year month day year' month' day' ∨
      (year = year' ∧ month = month' ∧ day = day') ∨
        Earlier year' month' day' year month day := by
  unfold Earlier
  omega

/-- The count of days has the order of the dates. -/
theorem daysBefore_lt_iff (h : IsDate year month day) (h' : IsDate year' month' day') :
    daysBefore year month day < daysBefore year' month' day' ↔
      Earlier year month day year' month' day' := by
  refine ⟨fun hlt => ?_, daysBefore_lt h h'⟩
  rcases earlier_trichotomy year month day year' month' day' with hless | ⟨rfl, rfl, rfl⟩ | hmore
  · exact hless
  · exact absurd hlt (lt_irrefl _)
  · exact absurd hlt (daysBefore_lt h' h hmore).asymm

/-- No two dates have one number. -/
theorem daysBefore_inj (h : IsDate year month day) (h' : IsDate year' month' day')
    (heq : daysBefore year month day = daysBefore year' month' day') :
    year = year' ∧ month = month' ∧ day = day' := by
  rcases earlier_trichotomy year month day year' month' day' with hless | hsame | hmore
  · exact absurd heq (daysBefore_lt h h' hless).ne
  · exact hsame
  · exact absurd heq (daysBefore_lt h' h hmore).ne'

/-- The date after a date has the next number: within the month, at its end, and at the end of the
year. -/
theorem IsDate.daysBefore_dayAfter (h : IsDate year month day)
    (hnext : Calendar.dayAfter year month day = (year', month', day')) :
    daysBefore year' month' day' = daysBefore year month day + 1 := by
  obtain ⟨hmonth, hmonth', hday, hday'⟩ := h
  have hmonths := daysBeforeMonth_succ year hmonth hmonth'
  -- the next day of the month, the first of the next month, the first of the next year
  unfold Calendar.dayAfter at hnext
  split at hnext
  · cases hnext
    unfold daysBefore
    omega
  · next hlast =>
    split at hnext
    · cases hnext
      unfold daysBefore
      omega
    · next hdecember =>
      cases hnext
      obtain rfl : month = 12 := by omega
      rw [daysBeforeMonth_thirteen] at hmonths
      rw [daysBefore, daysBefore, daysBeforeYear_succ, daysBeforeMonth_one]
      omega

/-- The day after has the next number. -/
theorem IsDate.dayNumber_dayAfter (h : IsDate year month day)
    (hnext : Calendar.dayAfter year month day = (year', month', day')) :
    dayNumber year' month' day' = dayNumber year month day + 1 := by
  rw [(h.dayAfter hnext).dayNumber_eq, h.daysBefore_dayAfter hnext, h.dayNumber_eq]
  omega

/-! ## The date with a number -/

/-- The loop over the years keeps the day that is meant, and leaves what fits into a year. -/
theorem takeYears_spec {start days left : Nat} (h : takeYears start days = (year, left)) :
    start ≤ year ∧ left < yearLength year ∧
      daysBeforeYear year + left = daysBeforeYear start + days := by
  induction start, days using takeYears.induct with
  | case1 start days hlt =>
    rw [takeYears, if_pos hlt] at h
    cases h
    exact ⟨le_refl year, hlt, rfl⟩
  | case2 start days hge ih =>
    rw [takeYears, if_neg hge] at h
    obtain ⟨hstart, hleft, hsum⟩ := ih h
    rw [daysBeforeYear_succ] at hsum
    exact ⟨by omega, hleft, by omega⟩

/-- The loop over the months keeps the day of the year, and leaves what fits into a month. -/
theorem takeMonths_spec {lengths : List Nat} {start days left : Nat} (hpos : 1 ≤ start)
    (hlengths : (monthLengths (isLeap year)).drop (start - 1) = lengths)
    (hroom : daysBeforeMonth year start + days < yearLength year)
    (h : takeMonths start days lengths = (month, left)) :
    1 ≤ month ∧ month ≤ 12 ∧ left < lastDay year month ∧
      daysBeforeMonth year month + left = daysBeforeMonth year start + days := by
  induction lengths generalizing start days with
  | nil =>
    -- past December nothing of the year is left
    have hpast : (monthLengths (isLeap year)).length ≤ start - 1 := List.drop_eq_nil_iff.mp hlengths
    have hall : daysBeforeMonth year start = yearLength year := by
      rw [← daysBeforeMonth_thirteen, daysBeforeMonth, daysBeforeMonth,
        List.take_of_length_le hpast]
      rfl
    omega
  | cons length rest ih =>
    have hle : start ≤ 12 := by
      have htwelve : (monthLengths (isLeap year)).length = 12 := rfl
      have hlonger := congrArg List.length hlengths
      rw [List.length_drop, List.length_cons] at hlonger
      omega
    rw [drop_monthLengths year hpos hle, List.cons.injEq] at hlengths
    obtain ⟨rfl, hrest⟩ := hlengths
    rw [takeMonths] at h
    split at h
    · next hlt =>
      cases h
      exact ⟨hpos, hle, hlt, rfl⟩
    · next hge =>
      have hstep := daysBeforeMonth_succ year hpos hle
      have hsame : daysBeforeMonth year (start + 1) + (days - lastDay year start) =
          daysBeforeMonth year start + days := by omega
      rw [← hsame] at hroom ⊢
      exact ih (by omega) hrest hroom h

/-- The date of a number is a date, from 1970 on, with this number. -/
theorem dateOfDay_spec {days : Nat} (h : dateOfDay days = (year, month, day)) :
    IsDate year month day ∧ 1970 ≤ year ∧
      daysBefore year month day = daysBeforeYear 1970 + days := by
  rw [dateOfDay] at h
  cases hyears : takeYears 1970 days with
  | mk year' left =>
    cases hmonths : takeMonths 1 left (monthLengths (isLeap year')) with
    | mk month' rest =>
      simp only [hyears, hmonths] at h
      cases h
      obtain ⟨hyear, hleft, hdays⟩ := takeYears_spec hyears
      have hroom : daysBeforeMonth year 1 + left < yearLength year := by
        rw [daysBeforeMonth_one]
        omega
      obtain ⟨hpos, hle, hrest, hsum⟩ := takeMonths_spec (le_refl 1) rfl hroom hmonths
      rw [daysBeforeMonth_one] at hsum
      refine ⟨⟨hpos, hle, by omega, by omega⟩, hyear, ?_⟩
      rw [daysBefore]
      omega

/-- The date of a day has the number of the day. -/
theorem dayNumber_dateOfDay {days : Nat} (h : dateOfDay days = (year, month, day)) :
    dayNumber year month day = days := by
  obtain ⟨hdate, -, hnumber⟩ := dateOfDay_spec h
  rw [hdate.dayNumber_eq, hnumber]
  omega

/-- The number of a date from 1970 on is not negative, and the date is that of its number. -/
theorem dateOfDay_dayNumber (h : IsDate year month day) (hyear : 1970 ≤ year) :
    0 ≤ dayNumber year month day ∧
      dateOfDay (dayNumber year month day).toNat = (year, month, day) := by
  have hstart : daysBeforeYear 1970 ≤ daysBefore year month day :=
    (daysBeforeYear_mono hyear).trans (daysBeforeYear_le year month day)
  have hnumber := h.dayNumber_eq
  refine ⟨by omega, ?_⟩
  cases hdate : dateOfDay (dayNumber year month day).toNat with
  | mk year' rest =>
    obtain ⟨month', day'⟩ := rest
    obtain ⟨hvalid, -, hsame⟩ := dateOfDay_spec hdate
    obtain ⟨rfl, rfl, rfl⟩ := daysBefore_inj hvalid h (by omega)
    rfl

/-- The numbers below 23217004 are those of the years up to 65535. -/
theorem year_le_iff {days : Nat} (h : dateOfDay days = (year, month, day)) :
    year ≤ 65535 ↔ days < 23217004 := by
  obtain ⟨hdate, -, hnumber⟩ := dateOfDay_spec h
  rw [daysBeforeYear_1970] at hnumber
  constructor
  · intro hyear
    have hend : daysBefore year month day < daysBeforeYear 65536 :=
      lt_of_lt_of_le hdate.lt_year (daysBeforeYear_mono (by omega))
    rw [daysBeforeYear_65536] at hend
    omega
  · intro hdays
    by_contra hlate
    have hfar : daysBeforeYear 65536 ≤ daysBeforeYear year := daysBeforeYear_mono (by omega)
    have hless := daysBeforeYear_le year month day
    rw [daysBeforeYear_65536] at hfar
    omega

/-! ## Eras -/

/-- The day's distance from 1970-01-01, counted in eras of 400 years that begin in March: January
and February belong to the year before, also to the year before the year 0. -/
def eraDayNumber (year month day : Nat) : Int :=
  let month := nearestMonth month
  let marchYear : Int := if month ≤ 2 then (year : Int) - 1 else year
  let era := marchYear / 400
  let yearOfEra := marchYear - era * 400
  let dayOfYear : Int := (153 * ((month + 9) % 12 : Nat) + 2) / 5 + day - 1
  let dayOfEra := yearOfEra * 365 + yearOfEra / 4 - yearOfEra / 100 + dayOfYear
  era * 146097 + dayOfEra - 719468

/-- Eras are put together from whole years: they add nothing to the rule of the leap years. -/
theorem eras_eq (y : Int) :
    y / 400 * 146097 + ((y - y / 400 * 400) * 365 + (y - y / 400 * 400) / 4
        - (y - y / 400 * 400) / 100) =
      365 * y + y / 4 - y / 100 + y / 400 := by
  have h4 : (y - y / 400 * 400) / 4 = y / 4 - 100 * (y / 400) := by omega
  have h100 : (y - y / 400 * 400) / 100 = y / 100 - 4 * (y / 400) := by omega
  rw [h4, h100]
  omega

/-- The year 0 is a leap year, and the years from 1 on are counted by the rule. -/
theorem daysBeforeYear_eq (year : Nat) :
    (daysBeforeYear year : Int) =
      366 + (365 * ((year : Int) - 1) + ((year : Int) - 1) / 4 - ((year : Int) - 1) / 100
        + ((year : Int) - 1) / 400) := by
  have h4 : (year + 3) / 4 = (((year : Int) - 1) / 4 + 1 : Int) := by omega
  have h100 : (year + 99) / 100 = (((year : Int) - 1) / 100 + 1 : Int) := by omega
  have h400 : (year + 399) / 400 = (((year : Int) - 1) / 400 + 1 : Int) := by omega
  have hroom : (year + 99) / 100 ≤ 365 * year + (year + 3) / 4 := by omega
  rw [daysBeforeYear, Nat.cast_add, Nat.cast_sub hroom, Nat.cast_add]
  push_cast
  rw [h4, h100, h400]
  omega

/-- From March on the months are told by a formula, which in January and February goes on from the
year before. -/
theorem daysBeforeMonth_eq (year : Nat) (hpos : 1 ≤ month) (hle : month ≤ 12) :
    daysBeforeMonth year month + 306 =
      (if month ≤ 2 then 0 else yearLength year) + (153 * ((month + 9) % 12) + 2) / 5 := by
  unfold daysBeforeMonth yearLength
  cases isLeap year <;> interval_cases month <;> rfl

/-- Counting in eras comes to the same number, whatever the fields are. -/
theorem dayNumber_eq_era (year month day : Nat) :
    dayNumber year month day = eraDayNumber year month day := by
  have hpos : 1 ≤ nearestMonth month := by
    unfold nearestMonth
    omega
  have hle : nearestMonth month ≤ 12 := by
    unfold nearestMonth
    omega
  unfold dayNumber eraDayNumber
  generalize nearestMonth month = month at hpos hle
  -- both count from a first of March, months and leap days apart
  have hmonths := daysBeforeMonth_eq year hpos hle
  rw [daysBeforeYear_1970]
  simp only
  by_cases hmonth : month ≤ 2
  · -- the year before is the one that begins in March
    have hyear := daysBeforeYear_eq year
    have heras := eras_eq ((year : Int) - 1)
    rw [if_pos hmonth] at hmonths
    rw [if_pos hmonth]
    omega
  · have hyear := daysBeforeYear_eq (year + 1)
    have heras := eras_eq year
    rw [daysBeforeYear_succ] at hyear
    push_cast at hyear
    rw [add_sub_cancel_right] at hyear
    rw [if_neg hmonth] at hmonths
    rw [if_neg hmonth]
    omega

end Userland.Calendar
