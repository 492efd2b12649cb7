/-
  Points in time as calendar fields, the texts that show them, and the clock.

  The fields of a timestamp are kept as they are given; only the names of weekday and month put a
  month into range first.
-/
import Userland.Calendar
import Userland.Fault
import Userland.Text.Column

namespace Userland

/-- A point in time, to the second. -/
structure Timestamp where
  year : Nat
  month : Nat
  day : Nat
  hour : Nat
  minute : Nat
  second : Nat
  deriving DecidableEq, Repr, Inhabited

namespace Timestamp

open Text Calendar

/-- The first second of a date. -/
def ofDate (year month day : Nat) : Timestamp := ⟨year, month, day, 0, 0, 0⟩

/-- The point in time some seconds after the first of 1970. -/
def ofUnixSeconds (seconds : Nat) : Timestamp :=
  let (year, month, day) := dateOfDay (seconds / 86400)
  let rest := seconds % 86400
  ⟨year, month, day, rest / 3600, rest % 3600 / 60, rest % 60⟩

/-- The fields, the largest unit first. -/
def fields (t : Timestamp) : List Nat :=
  [t.year, t.month, t.day, t.hour, t.minute, t.second]

/-- Timestamps are ordered by their fields, the largest unit first. -/
instance : Ord Timestamp := ⟨fun s t => compare s.fields t.fields⟩

/-! ## Texts -/

def weekdayName (t : Timestamp) : String :=
  Calendar.weekdayName (dayNumber t.year t.month t.day)

def monthName (t : Timestamp) : String := Calendar.monthName t.month

/-- Year, month and day as numbers. -/
def isoDate (t : Timestamp) : String :=
  zeroPadded 4 t.year ++ "-" ++ zeroPadded 2 t.month ++ "-" ++ zeroPadded 2 t.day

/-- The time of day. -/
def clockText (t : Timestamp) : String :=
  zeroPadded 2 t.hour ++ ":" ++ zeroPadded 2 t.minute ++ ":" ++ zeroPadded 2 t.second

/-- The time of day to the minute. -/
def minuteText (t : Timestamp) : String :=
  zeroPadded 2 t.hour ++ ":" ++ zeroPadded 2 t.minute

/-- Date and time as numbers, as in `2024-01-15 10:30:05`. -/
def text (t : Timestamp) : String := t.isoDate ++ " " ++ t.clockText

/-- The interchange form, as in `2024-01-15T10:30:05.000Z`. -/
def isoText (t : Timestamp) : String := t.isoDate ++ "T" ++ t.clockText ++ ".000Z"

/-- The date in words, as in `Mon Jan 15 2024`. -/
def dateText (t : Timestamp) : String :=
  " ".intercalate [t.weekdayName, t.monthName, zeroPadded 2 t.day, t.year.repr]

/-- Date and time in words, as in `Mon Jan 15 10:30:05 UTC 2024`. -/
def longText (t : Timestamp) : String :=
  " ".intercalate
    [t.weekdayName, t.monthName, numberRight 2 t.day, t.clockText, "UTC", t.year.repr]

/-- The stamp of a directory listing, as in `Jan 15 10:30`. -/
def listingText (t : Timestamp) : String :=
  " ".intercalate [t.monthName, numberRight 2 t.day, t.minuteText]

example : (ofDate 2024 3 1).longText = "Fri Mar  1 00:00:00 UTC 2024" := by decide

end Timestamp

/-! ## The clock -/

/-- A clock: it shows a time and the seconds since the machine was started, or it fails for one
reason whenever it is read. -/
inductive Clock where
  | showing (now : Timestamp) (uptime : Nat)
  | failing (reason : String)

namespace Clock

def now : Clock → Except Fault Timestamp
  | showing now _ => .ok now
  | failing reason => .error (.badConfig reason)

def uptime : Clock → Except Fault Nat
  | showing _ uptime => .ok uptime
  | failing reason => .error (.badConfig reason)

end Clock

end Userland
