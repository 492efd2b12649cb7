/-
  Timestamps in their order, and the names of weekdays and months.

  1. *Program.*  `ofUnixSeconds` cuts a number of seconds into days and the seconds of the last day,
     turns the days into a date and the seconds into a time of day.  `weekdayName` and `monthName`
     look a name up in a table, by the number of the day and by the month.

  2. *Specification.*  Seconds from 1970 on and points in time belong together one to one
     (`unixSeconds`), and later seconds give later timestamps, in the order of the fields.  From a
     date to the date after it the weekday goes on by one, in every year; and whatever the fields
     are, no look-up leaves its table.

  3. *The crux.*  Both are facts about the numbers of dates: they are in the order of the dates
     (`daysBefore_lt_iff`), and the date after a date has the next one
     (`IsDate.dayNumber_dayAfter`).
-/
import Userland.Proofs.Calendar
import Userland.Timestamp

namespace Userland

/-- Lists of numbers are compared by the first place in which they differ. -/
theorem compare_list_eq_lt_iff {a b : List Nat} : compare a b = .lt ↔ a < b := by
  show List.compareLex compare a b = .lt ↔ a < b
  induction a generalizing b with
  | nil =>
    cases b with
    | nil => simp [List.compareLex]
    | cons y b => simp [List.compareLex]
  | cons x a ih =>
    cases b with
    | nil => simp [List.compareLex]
    | cons y b =>
      rw [List.compareLex_cons_cons, Ordering.then_eq_lt, Nat.compare_eq_lt, Nat.compare_eq_eq, ih,
        List.cons_lt_cons_iff]

namespace Timestamp

open Calendar

/-! ## Seconds and fields -/

/-- The fields are those of a date and of a time of day, from 1970 on. -/
structure IsPoint (t : Timestamp) : Prop where
  date : IsDate t.year t.month t.day
  since : 1970 ≤ t.year
  hour : t.hour < 24
  minute : t.minute < 60
  second : t.second < 60

/-- The seconds from the first of 1970 up to a point in time. -/
def unixSeconds (t : Timestamp) : Int :=
  dayNumber t.year t.month t.day * 86400 + (t.hour * 3600 + t.minute * 60 + t.second : Nat)

/-- The days make the date, and the seconds that are left make the time of day. -/
theorem ofUnixSeconds_eq {seconds year month day : Nat}
    (h : dateOfDay (seconds / 86400) = (year, month, day)) :
    ofUnixSeconds seconds =
      ⟨year, month, day, seconds % 86400 / 3600, seconds % 86400 % 3600 / 60,
        seconds % 86400 % 60⟩ := by
  rw [ofUnixSeconds, h]

/-- The fields are in range. -/
theorem isPoint_ofUnixSeconds (seconds : Nat) : (ofUnixSeconds seconds).IsPoint := by
  cases h : dateOfDay (seconds / 86400) with
  | mk year rest =>
    obtain ⟨month, day⟩ := rest
    obtain ⟨hdate, hsince, -⟩ := dateOfDay_spec h
    have hhour : seconds % 86400 / 3600 < 24 := by omega
    have hminute : seconds % 86400 % 3600 / 60 < 60 := by omega
    have hsecond : seconds % 86400 % 60 < 60 := by omega
    rw [ofUnixSeconds_eq h]
    exact ⟨hdate, hsince, hhour, hminute, hsecond⟩

/-- No second is lost: the point in time is as many seconds after the first of 1970 as it was made
from. -/
theorem unixSeconds_ofUnixSeconds (seconds : Nat) :
    (ofUnixSeconds seconds).unixSeconds = seconds := by
  cases h : dateOfDay (seconds / 86400) with
  | mk year rest =>
    obtain ⟨month, day⟩ := rest
    have hday := dayNumber_dateOfDay h
    rw [ofUnixSeconds_eq h]
    simp only [unixSeconds, hday]
    omega

/-- Every point in time from 1970 on is made from its seconds. -/
theorem ofUnixSeconds_unixSeconds {t : Timestamp} (h : t.IsPoint) :
    ofUnixSeconds t.unixSeconds.toNat = t := by
  obtain ⟨hdate, hsince, hhour, hminute, hsecond⟩ := h
  obtain ⟨hnonneg, hback⟩ := dateOfDay_dayNumber hdate hsince
  -- the seconds of one day do not reach the next one
  have hdays : t.unixSeconds.toNat / 86400 = (dayNumber t.year t.month t.day).toNat := by
    rw [unixSeconds]
    omega
  have hrest : t.unixSeconds.toNat % 86400 = t.hour * 3600 + t.minute * 60 + t.second := by
    rw [unixSeconds]
    omega
  rw [← hdays] at hback
  have hhours : (t.hour * 3600 + t.minute * 60 + t.second) / 3600 = t.hour := by omega
  have hminutes : (t.hour * 3600 + t.minute * 60 + t.second) % 3600 / 60 = t.minute := by omega
  have hseconds : (t.hour * 3600 + t.minute * 60 + t.second) % 60 = t.second := by omega
  rw [ofUnixSeconds_eq hback, hrest, hhours, hminutes, hseconds]

/-! ## The order -/

/-- Later seconds give later timestamps. -/
theorem compare_ofUnixSeconds {s₁ s₂ : Nat} (h : s₁ < s₂) :
    compare (ofUnixSeconds s₁) (ofUnixSeconds s₂) = .lt := by
  cases h₁ : dateOfDay (s₁ / 86400) with
  | mk year₁ rest₁ =>
    cases h₂ : dateOfDay (s₂ / 86400) with
    | mk year₂ rest₂ =>
      obtain ⟨month₁, day₁⟩ := rest₁
      obtain ⟨month₂, day₂⟩ := rest₂
      obtain ⟨hdate₁, -, hnumber₁⟩ := dateOfDay_spec h₁
      obtain ⟨hdate₂, -, hnumber₂⟩ := dateOfDay_spec h₂
      rw [ofUnixSeconds_eq h₁, ofUnixSeconds_eq h₂]
      show compare (fields _) (fields _) = .lt
      rw [compare_list_eq_lt_iff]
      simp only [fields, List.cons_lt_cons_iff, List.not_lt_nil, and_false, or_false]
      by_cases hday : s₁ / 86400 = s₂ / 86400
      · -- on one day the time of day decides
        obtain ⟨rfl, rfl, rfl⟩ := daysBefore_inj hdate₁ hdate₂ (by omega)
        omega
      · have hearlier := (daysBefore_lt_iff hdate₁ hdate₂).mp (by omega)
        unfold Earlier at hearlier
        omega

/-- The numbers below 23217004 and the dates of the years from 1970 to 65535 belong together one to
one, and later seconds of these days give later timestamps. -/
theorem dates_numbered_in_order :
    (∀ days year month day, days < 23217004 → dateOfDay days = (year, month, day) →
      IsDate year month day ∧ 1970 ≤ year ∧ year ≤ 65535 ∧ dayNumber year month day = days) ∧
    (∀ year month day, IsDate year month day → 1970 ≤ year → year ≤ 65535 →
      ∃ days : Nat, days < 23217004 ∧ dayNumber year month day = days ∧
        dateOfDay days = (year, month, day)) ∧
    ∀ s₁ s₂, s₁ < s₂ → s₂ < 86400 * 23217004 →
      compare (ofUnixSeconds s₁) (ofUnixSeconds s₂) = .lt := by
  refine ⟨fun days year month day hdays h => ?_, fun year month day hdate hfrom hto => ?_,
    fun s₁ s₂ h _ => compare_ofUnixSeconds h⟩
  · obtain ⟨hdate, hfrom, -⟩ := dateOfDay_spec h
    exact ⟨hdate, hfrom, (year_le_iff h).mpr hdays, dayNumber_dateOfDay h⟩
  · obtain ⟨hnonneg, hback⟩ := dateOfDay_dayNumber hdate hfrom
    refine ⟨(dayNumber year month day).toNat, (year_le_iff hback).mp hto, ?_, hback⟩
    omega

/-- The leap day of 2000, the last day of all, and the last second of a century. -/
theorem sample_dates_numbered_in_order :
    (11016 < 23217004 ∧ dateOfDay 11016 = (2000, 2, 29) ∧
      IsDate 2000 2 29 ∧ 1970 ≤ 2000 ∧ 2000 ≤ 65535 ∧ dayNumber 2000 2 29 = 11016) ∧
    (IsDate 65535 12 31 ∧ ∃ days : Nat, days < 23217004 ∧ dayNumber 65535 12 31 = days ∧
      dateOfDay days = (65535, 12, 31)) ∧
    (4102444799 < 4102444800 ∧ 4102444800 < 86400 * 23217004 ∧
      compare (ofUnixSeconds 4102444799) (ofUnixSeconds 4102444800) = .lt) := by
  have hleap : dateOfDay 11016 = (2000, 2, 29) := by decide +kernel
  have hlast : IsDate 65535 12 31 := by decide
  obtain ⟨hnumbers, hdates, hseconds⟩ := dates_numbered_in_order
  exact ⟨⟨by decide, hleap, hnumbers 11016 2000 2 29 (by decide) hleap⟩,
    ⟨hlast, hdates 65535 12 31 hlast (by decide) (by decide)⟩,
    by decide, by decide, hseconds 4102444799 4102444800 (by decide) (by decide)⟩

/-! ## Names -/

/-- The name of a weekday stands in the table, in the place of the remainder by seven. -/
theorem getElem?_weekdayNames (number : Int) :
    weekdayNames[((number + 4) % 7).toNat]? = some (Calendar.weekdayName number) := by
  have hrange : ((number + 4) % 7).toNat < weekdayNames.length := by
    show _ < 7
    omega
  rw [List.getElem?_eq_getElem hrange]
  rfl

/-- A month that is kept between one and twelve has a name in the table. -/
theorem getElem?_monthNames (month : Nat) :
    monthNames[min (max month 1) 12 - 1]? = some (Calendar.monthName month) := by
  have hrange : min (max month 1) 12 - 1 < monthNames.length := by
    show _ < 12
    omega
  rw [List.getElem?_eq_getElem hrange]
  rfl

/-- From a date to the one after it the number and the weekday go on by one, across the ends of
months, years and centuries.  The number is also that of the eras, for all fields whatever, and the
places that are looked up for the names are in the tables. -/
theorem weekdays_in_turn :
    (∀ t t' : Timestamp, IsDate t.year t.month t.day →
      dayAfter t.year t.month t.day = (t'.year, t'.month, t'.day) →
      dayNumber t'.year t'.month t'.day = dayNumber t.year t.month t.day + 1 ∧
        ∃ i < 7, weekdayNames[i]? = some t.weekdayName ∧
          weekdayNames[(i + 1) % 7]? = some t'.weekdayName) ∧
    ∀ t : Timestamp,
      dayNumber t.year t.month t.day = eraDayNumber t.year t.month t.day ∧
      weekdayNames[((eraDayNumber t.year t.month t.day + 4) % 7).toNat]? = some t.weekdayName ∧
      monthNames[min (max t.month 1) 12 - 1]? = some t.monthName := by
  refine ⟨fun t t' hdate hnext => ?_, fun t => ?_⟩
  · have hnumber := hdate.dayNumber_dayAfter hnext
    have hname := getElem?_weekdayNames (dayNumber t.year t.month t.day)
    have hname' := getElem?_weekdayNames (dayNumber t'.year t'.month t'.day)
    -- the names go round in seven, as the numbers of the days do
    have hplace : ((dayNumber t'.year t'.month t'.day + 4) % 7).toNat =
        (((dayNumber t.year t.month t.day + 4) % 7).toNat + 1) % 7 := by omega
    rw [hplace] at hname'
    exact ⟨hnumber, _, by omega, hname, hname'⟩
  · have hera := dayNumber_eq_era t.year t.month t.day
    refine ⟨hera, ?_, getElem?_monthNames t.month⟩
    rw [← hera]
    exact getElem?_weekdayNames _

/-- The last day of February in a century without a leap day, before 1970. -/
theorem sample_weekdays_in_turn :
    let t : Timestamp := ⟨1900, 2, 28, 23, 59, 59⟩
    let t' : Timestamp := ⟨1900, 3, 1, 0, 0, 0⟩
    IsDate t.year t.month t.day ∧
      dayAfter t.year t.month t.day = (t'.year, t'.month, t'.day) ∧
      dayNumber t'.year t'.month t'.day = dayNumber t.year t.month t.day + 1 ∧
        ∃ i < 7, weekdayNames[i]? = some t.weekdayName ∧
          weekdayNames[(i + 1) % 7]? = some t'.weekdayName :=
  ⟨by decide, by decide, weekdays_in_turn.1 _ _ (by decide) (by decide)⟩

example : (ofDate 1900 2 28).weekdayName = "Wed" ∧ (ofDate 1900 3 1).weekdayName = "Thu" := by
  decide

end Timestamp

end Userland
