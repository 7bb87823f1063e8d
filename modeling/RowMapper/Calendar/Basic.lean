/-!
# Calendar dates and timestamps

Dates of the proleptic Gregorian calendar and times of day without a zone. A second that is a leap
second is second 59 with a nanosecond of a thousand million or more.
-/

namespace RowMapper

namespace Calendar

/-- The earliest and the latest year a date may have. -/
def leastYear : Int := -262143

@[inherit_doc leastYear]
def greatestYear : Int := 262142

/-- Whether a year has a 29 February. -/
def isLeapYear (year : Int) : Bool :=
  year % 4 == 0 && (year % 100 != 0 || year % 400 == 0)

/-- The number of days of a month; zero for a number that is no month. -/
def daysInMonth (year : Int) : Nat → Nat
  | 1 | 3 | 5 | 7 | 8 | 10 | 12 => 31
  | 4 | 6 | 9 | 11 => 30
  | 2 => if isLeapYear year then 29 else 28
  | _ => 0

/-- Whether the three numbers name a day. -/
def isDate (year : Int) (month day : Nat) : Bool :=
  leastYear ≤ year && year ≤ greatestYear && 1 ≤ day && day ≤ daysInMonth year month

/-- Whether the four numbers name a time of day. -/
def isTime (hour minute second nanosecond : Nat) : Bool :=
  hour < 24 && minute < 60 && second < 60 &&
    (nanosecond < 1000000000 || (second == 59 && nanosecond < 2000000000))

end Calendar

/-- A day of the calendar. -/
structure Date where
  year : Int
  month : Nat
  day : Nat
  valid : Calendar.isDate year month day = true
  deriving DecidableEq

/-- A day and a time of it. -/
structure Timestamp where
  date : Date
  hour : Nat
  minute : Nat
  second : Nat
  nanosecond : Nat
  valid : Calendar.isTime hour minute second nanosecond = true
  deriving DecidableEq

namespace Date

/-- The day that three numbers name. -/
def of? (year : Int) (month day : Nat) : Option Date :=
  if h : Calendar.isDate year month day = true then some ⟨year, month, day, h⟩ else none

/-- The first of January 1970. -/
def epoch : Date := ⟨1970, 1, 1, by decide⟩

end Date

namespace Timestamp

/-- The timestamp of a day and the numbers of a time. -/
def of? (date : Date) (hour minute second nanosecond : Nat) : Option Timestamp :=
  if h : Calendar.isTime hour minute second nanosecond = true then
    some ⟨date, hour, minute, second, nanosecond, h⟩
  else none

/-- Midnight at the start of 1970. -/
def epoch : Timestamp := ⟨.epoch, 0, 0, 0, 0, by decide⟩

end Timestamp

end RowMapper
