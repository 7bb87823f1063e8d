import RowMapper.Calendar.Basic
import RowMapper.Text.Blank

/-!
# Texts of dates and timestamps

A date is written `year-month-day` and a timestamp as its date, a space and
`hour:minute:second`. A year from 0 to 9999 has four digits; any other year has a sign and at least
four digits. A leap second is written as second 60.

Reading is wider than writing: blanks may stand before every number, a number may have fewer digits
than it is written with, a signed year any number of them, and between date and time there may be
any blanks or none, or the letter `T`. Fractions of a second are neither written nor read.
-/

namespace RowMapper.Calendar

/-! ## Writing -/

/-- The decimal text of a number, filled with zeros on the left. -/
def padded (width n : Nat) : List Char :=
  let digits := Nat.toDigits 10 n
  List.replicate (width - digits.length) '0' ++ digits

/-- The text of a year. -/
def yearText (year : Int) : List Char :=
  if 0 ≤ year ∧ year ≤ 9999 then padded 4 year.toNat
  else (if year < 0 then '-' else '+') :: padded 4 year.natAbs

/-- The text of a date. -/
def dateText (d : Date) : List Char :=
  yearText d.year ++ '-' :: (padded 2 d.month ++ '-' :: padded 2 d.day)

/-- The text of a time of day, its fraction left out. -/
def timeText (t : Timestamp) : List Char :=
  let second := if t.nanosecond < 1000000000 then t.second else t.second + 1
  padded 2 t.hour ++ ':' :: (padded 2 t.minute ++ ':' :: padded 2 second)

/-- The text of a timestamp. -/
def timestampText (t : Timestamp) : List Char := dateText t.date ++ ' ' :: timeText t

/-! ## Reading -/

/-- The number that decimal digits stand for. -/
def digitsValue (digits : List Char) : Nat :=
  digits.foldl (fun n c => n * 10 + (c.toNat - 48)) 0

/-- Reads at least one and at most `width` digits. -/
def readDigits (width : Nat) (s : List Char) : Option (Nat × List Char) :=
  let digits := (s.take width).takeWhile Char.isDigit
  if digits.isEmpty then none else some (digitsValue digits, s.drop digits.length)

/-- Reads a number of at most `width` digits after any blanks. -/
def readNumber (width : Nat) (s : List Char) : Option (Nat × List Char) :=
  readDigits width (Text.trimStart s)

/-- Reads a year after any blanks; with a sign it may have any number of digits, else four. -/
def readYear (s : List Char) : Option (Int × List Char) :=
  match Text.trimStart s with
  | '-' :: rest => (readDigits rest.length rest).map fun (n, rest) => (-(n : Int), rest)
  | '+' :: rest => (readDigits rest.length rest).map fun (n, rest) => ((n : Int), rest)
  | rest => (readDigits 4 rest).map fun (n, rest) => ((n : Int), rest)

/-- Reads one given character. -/
def readMark (mark : Char) : List Char → Option (List Char)
  | c :: rest => if c = mark then some rest else none
  | [] => none

/-- Reads a date at the front of a text. -/
def readDate (s : List Char) : Option (Date × List Char) := do
  let (year, s) ← readYear s
  let s ← readMark '-' s
  let (month, s) ← readNumber 2 s
  let s ← readMark '-' s
  let (day, s) ← readNumber 2 s
  let date ← Date.of? year month day
  return (date, s)

/-- Reads the rest of a timestamp whose date is known, up to the end of the text. -/
def readTime (date : Date) (s : List Char) : Option Timestamp := do
  let (hour, s) ← readNumber 2 s
  let s ← readMark ':' s
  let (minute, s) ← readNumber 2 s
  let s ← readMark ':' s
  let (second, s) ← readNumber 2 s
  if s.isEmpty then
    if second = 60 then Timestamp.of? date hour minute 59 1000000000
    else Timestamp.of? date hour minute second 0
  else none

/-- The date that a whole text stands for. -/
def dateOfText? (s : List Char) : Option Date :=
  match readDate s with
  | some (date, []) => some date
  | _ => none

/-- The timestamp that a whole text stands for. -/
def timestampOfText? (s : List Char) : Option Timestamp := do
  let (date, rest) ← readDate s
  match readTime date (Text.trimStart rest) with
  | some t => return t
  | none => readTime date (← readMark 'T' rest)

end RowMapper.Calendar
