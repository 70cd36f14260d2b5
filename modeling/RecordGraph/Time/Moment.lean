import RecordGraph.Number.FloatText
/-!
Points in time with the offset they were written with, as date and time of day at that offset. Two
moments are the same instant when they agree after the offset is taken away.
-/

namespace RecordGraph

/-- Date and time of day at an offset of whole minutes from universal time. Second 60 is a leap
second. -/
structure Moment where
  year : Int
  month : Nat
  day : Nat
  hour : Nat
  minute : Nat
  second : Nat
  nanos : Nat
  offset : Int
  deriving DecidableEq, Repr, Inhabited

namespace Moment

/-- Every fourth year is a leap year, of the full centuries only every fourth. -/
def isLeapYear (year : Int) : Bool := year % 4 == 0 && (year % 100 != 0 || year % 400 == 0)

/-- How many days a month has. -/
def daysInMonth (year : Int) (month : Nat) : Nat :=
  if month = 2 then if isLeapYear year then 29 else 28
  else if month = 4 ∨ month = 6 ∨ month = 9 ∨ month = 11 then 30
  else 31

/-- Days from the first of March of year zero to a date, counting years from March. -/
def dayNumber (year : Int) (month day : Nat) : Int :=
  let year := if month ≤ 2 then year - 1 else year
  let month : Int := if month ≤ 2 then month + 9 else month - 3
  year * 365 + year / 4 - year / 100 + year / 400 + (month * 153 + 2) / 5 + day

/-- Seconds and nanoseconds on the universal time scale. A leap second shares its number with the
second before it and counts on in nanoseconds. -/
def instant (m : Moment) : Int × Nat :=
  let second : Nat := min m.second 59
  ((dayNumber m.year m.month m.day * 1440 + m.hour * 60 + m.minute - m.offset) * 60 + second,
    m.nanos + (m.second - second) * 1000000000)

/-- Whether two moments are the same instant, whatever their offsets. -/
def sameInstant (m n : Moment) : Bool := m.instant == n.instant

/-- A number with leading zeros up to a width. -/
def padded (width n : Nat) : String :=
  let body := toString n
  zeros (width - body.length) ++ body

/-- A year of four digits, with a sign outside of the years 0 to 9999. -/
def yearText (year : Int) : String :=
  if year < 0 then "-" ++ padded 4 year.natAbs
  else if 9999 < year then "+" ++ padded 4 year.natAbs
  else padded 4 year.natAbs

/-- A fraction of a second in none, three, six or nine digits. -/
def fractionText (nanos : Nat) : String :=
  if nanos = 0 then ""
  else if nanos % 1000000 = 0 then "." ++ padded 3 (nanos / 1000000)
  else if nanos % 1000 = 0 then "." ++ padded 6 (nanos / 1000)
  else "." ++ padded 9 nanos

/-- An offset as hours and minutes. -/
def offsetText (offset : Int) : String :=
  (if offset < 0 then "-" else "+") ++
    padded 2 (offset.natAbs / 60) ++ ":" ++ padded 2 (offset.natAbs % 60)

/-- The date. -/
def dateText (m : Moment) : String :=
  yearText m.year ++ "-" ++ padded 2 m.month ++ "-" ++ padded 2 m.day

/-- The time of day. -/
def timeText (m : Moment) : String :=
  padded 2 m.hour ++ ":" ++ padded 2 m.minute ++ ":" ++ padded 2 m.second ++ fractionText m.nanos

/-- The text by RFC 3339. -/
def text (m : Moment) : String := m.dateText ++ "T" ++ m.timeText ++ offsetText m.offset

/-- The text with blanks between date, time and offset. -/
def spacedText (m : Moment) : String :=
  m.dateText ++ " " ++ m.timeText ++ " " ++ offsetText m.offset

end Moment

end RecordGraph
