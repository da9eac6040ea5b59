/-!
# Dates and times

Days of the calendar and times of the clock, as a configuration can hold them. The calendar has the
years from 1 to 9999.
-/

namespace KixScript

/-- A day of the calendar. -/
structure Date where
  year : Nat
  month : Nat
  day : Nat
  deriving DecidableEq, Repr

/-- A time of the clock. -/
structure Time where
  hour : Nat
  minute : Nat
  second : Nat
  microsecond : Nat
  deriving DecidableEq, Repr

/-- A day, a time, or a time on a day. -/
inductive Moment where
  | date (date : Date)
  | time (time : Time)
  /-- `ahead` has the minutes by which the clock is ahead of universal time, if that is known. -/
  | dateTime (date : Date) (time : Time) (ahead : Option Int)
  deriving DecidableEq, Repr

namespace Date

/-- Whether a year has a 29th of February. -/
def isLeapYear (year : Nat) : Bool :=
  year % 4 == 0 && (year % 100 != 0 || year % 400 == 0)

/-- The number of days of a month. -/
def daysIn (year month : Nat) : Nat :=
  if month = 2 then if isLeapYear year then 29 else 28
  else if [4, 6, 9, 11].contains month then 30
  else 31

/-- Whether the calendar has such a day. -/
def isValid (date : Date) : Bool :=
  1 ≤ date.year && date.year ≤ 9999 && 1 ≤ date.month && date.month ≤ 12 && 1 ≤ date.day
    && date.day ≤ daysIn date.year date.month

/-- The numbers of a date. -/
def numbers (date : Date) : List Nat :=
  [date.year, date.month, date.day]

end Date

/-- The numbers of a time, without zeros for seconds and their parts where nothing follows. -/
def Time.numbers (time : Time) : List Nat :=
  [time.hour, time.minute]
    ++ if time.microsecond ≠ 0 then [time.second, time.microsecond]
      else if time.second ≠ 0 then [time.second]
      else []

/-- The printed form of a zone, which is universal time or some seconds ahead of it. What is behind
is a day back and then ahead. -/
def printZone (ahead : Int) : String :=
  if ahead = 0 then "datetime.timezone.utc"
  else
    let days := if ahead < 0 then "days=-1, " else ""
    s!"datetime.timezone(datetime.timedelta({days}seconds={ahead * 60 % 86400}))"

namespace Moment

/-- Whether there is such a moment. -/
def isValid : Moment → Bool
  | date day => day.isValid
  | time _ => true
  | dateTime day _ _ => day.isValid

/-- The printed form of a moment. -/
def print (moment : Moment) : String :=
  let list (numbers : List Nat) : String := ", ".intercalate (numbers.map toString)
  match moment with
  | date day => "datetime.date(" ++ list day.numbers ++ ")"
  | time clock => "datetime.time(" ++ list clock.numbers ++ ")"
  | dateTime day clock ahead =>
    let zone := (ahead.map fun minutes => ", tzinfo=" ++ printZone minutes).getD ""
    "datetime.datetime(" ++ list (day.numbers ++ clock.numbers) ++ zone ++ ")"

/-- How many printed forms stand inside of one another in that of a moment: a zone stands in it, and
in a zone other than universal time the time by which it is ahead. -/
def printDepth : Moment → Nat
  | dateTime _ _ (some ahead) => if ahead = 0 then 2 else 3
  | _ => 1

end Moment

end KixScript
