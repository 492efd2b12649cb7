/-
  The Gregorian calendar, carried back before its introduction, and days counted from 1970-01-01.

  `dayNumber` counts the days up to a date in closed form; `dateOfDay` goes the other way by taking
  off whole years and then whole months.
-/

namespace Userland.Calendar

/-! ## Years and months -/

/-- Every fourth year is a leap year, of the full centuries only every fourth. -/
def isLeap (year : Nat) : Bool :=
  year % 4 = 0 && year % 100 ≠ 0 || year % 400 = 0

def yearLength (year : Nat) : Nat := if isLeap year then 366 else 365

/-- The days of the twelve months. -/
def monthLengths (leap : Bool) : List Nat :=
  [31, if leap then 29 else 28, 31, 30, 31, 30, 31, 31, 30, 31, 30, 31]

/-- The days of all years before this one, from the year 0 on. -/
def daysBeforeYear (year : Nat) : Nat :=
  365 * year + (year + 3) / 4 - (year + 99) / 100 + (year + 399) / 400

/-- The days of a year before one of its months. -/
def daysBeforeMonth (year month : Nat) : Nat :=
  ((monthLengths (isLeap year)).take (month - 1)).foldl (· + ·) 0

theorem yearLength_pos (year : Nat) : 0 < yearLength year := by
  unfold yearLength; split <;> decide

/-! ## Days -/

/-- The month that is meant by a number: the nearest one of twelve. -/
def nearestMonth (month : Nat) : Nat := min (max month 1) 12

/-- The day's distance from 1970-01-01.  A month out of range stands for the nearest one, and a day
out of range counts on from its month. -/
def dayNumber (year month day : Nat) : Int :=
  (daysBeforeYear year + daysBeforeMonth year (nearestMonth month) + day : Nat) - 1
    - daysBeforeYear 1970

/-- Takes whole years off a number of days that starts with the first of `year`: the year in which
the days end, and the days left in it. -/
def takeYears (year days : Nat) : Nat × Nat :=
  if days < yearLength year then (year, days)
  else takeYears (year + 1) (days - yearLength year)
  termination_by days
  decreasing_by
    have := yearLength_pos year
    omega

/-- Takes whole months off, given their lengths from `month` on. -/
def takeMonths (month days : Nat) : List Nat → Nat × Nat
  | [] => (month, days)
  | length :: rest =>
    if days < length then (month, days) else takeMonths (month + 1) (days - length) rest

/-- The year, month and day that lie some days after 1970-01-01. -/
def dateOfDay (days : Nat) : Nat × Nat × Nat :=
  let (year, left) := takeYears 1970 days
  let (month, left) := takeMonths 1 left (monthLengths (isLeap year))
  (year, month, left + 1)

/-! ## Names -/

def weekdayNames : List String := ["Sun", "Mon", "Tue", "Wed", "Thu", "Fri", "Sat"]

def monthNames : List String :=
  ["Jan", "Feb", "Mar", "Apr", "May", "Jun", "Jul", "Aug", "Sep", "Oct", "Nov", "Dec"]

/-- The weekday of a day number; day 0 is a Thursday. -/
def weekdayName (day : Int) : String :=
  weekdayNames.get ⟨((day + 4) % 7).toNat, by simp only [weekdayNames, List.length]; omega⟩

/-- The name of a month, or of the nearest one. -/
def monthName (month : Nat) : String :=
  monthNames.get ⟨nearestMonth month - 1, by
    simp only [monthNames, nearestMonth, List.length]; omega⟩

example : weekdayName (dayNumber 2024 2 29) = "Thu" ∧ monthName 0 = "Jan" := by decide

end Userland.Calendar
