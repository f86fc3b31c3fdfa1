import ChangeImpact.Number.Decimal

/-!
# Dates and times

Days of the proleptic calendar from year 1 on, and times of day to the microsecond with an optional
distance from universal time in minutes. A date can be built only from fields in range.
-/

namespace ChangeImpact

/-- A day of the calendar. -/
structure Date where
  year : Nat
  month : Nat
  day : Nat
deriving DecidableEq, Repr

/-- A day and a time of day, with a distance from universal time when one is known. -/
structure DateTime where
  date : Date
  hour : Nat
  minute : Nat
  second : Nat
  microsecond : Nat
  /-- Minutes ahead of universal time. -/
  offset : Option Int
deriving DecidableEq, Repr

/-- Why fields do not make a date or a time. -/
inductive CalendarFault where
  | year (value : Nat)
  | month
  | day
  | hour
  | minute
  | second
  /-- A distance from universal time of a day or more, in minutes. -/
  | offset (minutes : Int)
deriving DecidableEq, Repr

namespace Calendar

def isLeap (year : Nat) : Bool :=
  year % 4 == 0 && (year % 100 != 0 || year % 400 == 0)

def daysInMonth (year month : Nat) : Nat :=
  match month with
  | 2 => if isLeap year then 29 else 28
  | 4 | 6 | 9 | 11 => 30
  | _ => 31

/-- The date with these fields. -/
def date (year month day : Nat) : Except CalendarFault Date :=
  if year < 1 || 9999 < year then .error (.year year)
  else if month < 1 || 12 < month then .error .month
  else if day < 1 || daysInMonth year month < day then .error .day
  else .ok ⟨year, month, day⟩

/-- A distance from universal time, which must be shorter than a day. -/
def checkOffset (minutes : Int) : Except CalendarFault Int :=
  if minutes.natAbs < 1440 then .ok minutes else .error (.offset minutes)

/-- The time with these fields; the date is judged before the time of day. -/
def dateTime (year month day hour minute second microsecond : Nat) (offset : Option Int) :
    Except CalendarFault DateTime := do
  let d ← date year month day
  if 23 < hour then .error .hour
  if 59 < minute then .error .minute
  if 59 < second then .error .second
  return ⟨d, hour, minute, second, microsecond, offset⟩

/-- A natural with at least `width` digits. -/
def padded (width n : Nat) : String :=
  let ds := natDigits n
  String.ofList (List.replicate (width - ds.length) '0' ++ ds)

/-- Days since the first day of year 1. -/
def dayNumber (d : Date) : Int :=
  let y := d.year - 1
  let before := ((List.range (d.month - 1)).map fun m => daysInMonth d.year (m + 1)).foldl (· + ·) 0
  (y * 365 + y / 4 - y / 100 + y / 400 + before + d.day : Nat)

/-- A span of minutes as whole days and seconds, the seconds not negative. -/
def span (minutes : Int) : String :=
  let days := minutes.fdiv 1440
  let seconds := (minutes.fmod 1440) * 60
  let parts := (if days == 0 then [] else ["days=" ++ intText days]) ++
    (if seconds == 0 then [] else ["seconds=" ++ intText seconds])
  "datetime.timedelta(" ++ (if parts.isEmpty then "0" else ", ".intercalate parts) ++ ")"

end Calendar

open Calendar

/-- Year, month and day with dashes. -/
def Date.text (d : Date) : String :=
  padded 4 d.year ++ "-" ++ padded 2 d.month ++ "-" ++ padded 2 d.day

/-- The date as a constructor call. -/
def Date.literal (d : Date) : String :=
  "datetime.date(" ++ ", ".intercalate ([d.year, d.month, d.day].map natText) ++ ")"

/-- Signed hours and minutes of a distance from universal time. -/
def DateTime.offsetText (minutes : Int) : String :=
  (if minutes < 0 then "-" else "+") ++ padded 2 (minutes.natAbs / 60) ++ ":" ++
    padded 2 (minutes.natAbs % 60)

/-- Date and time with a separator between them; a fraction only when it is not zero. -/
def DateTime.textWith (separator : String) (t : DateTime) : String :=
  t.date.text ++ separator ++ padded 2 t.hour ++ ":" ++ padded 2 t.minute ++ ":" ++
    padded 2 t.second ++ (if t.microsecond == 0 then "" else "." ++ padded 6 t.microsecond) ++
    (match t.offset with | some m => DateTime.offsetText m | none => "")

/-- The time as a constructor call, without a zero fraction and without zero seconds before it. -/
def DateTime.literal (t : DateTime) : String :=
  let fields := [t.date.year, t.date.month, t.date.day, t.hour, t.minute] ++
    (if t.second == 0 && t.microsecond == 0 then [] else [t.second]) ++
    (if t.microsecond == 0 then [] else [t.microsecond])
  let zone := match t.offset with
    | none => []
    | some 0 => ["tzinfo=datetime.timezone.utc"]
    | some m => ["tzinfo=datetime.timezone(" ++ span m ++ ")"]
  "datetime.datetime(" ++ ", ".intercalate (fields.map natText ++ zone) ++ ")"

/-- Minutes since the start of the calendar in universal time, the rest of the time kept apart. -/
def DateTime.instant (t : DateTime) : Int × Nat × Nat :=
  (dayNumber t.date * 1440 + t.hour * 60 + t.minute - t.offset.getD 0, t.second, t.microsecond)

/-- Two times are the same moment: both have a distance from universal time or neither has. -/
def DateTime.same (t u : DateTime) : Bool :=
  t.offset.isSome == u.offset.isSome && t.instant == u.instant

/-- What is wrong with the fields. -/
def CalendarFault.message : CalendarFault → String
  | .year y => "year " ++ natText y ++ " is out of range"
  | .month => "month must be in 1..12"
  | .day => "day is out of range for month"
  | .hour => "hour must be in 0..23"
  | .minute => "minute must be in 0..59"
  | .second => "second must be in 0..59"
  | .offset m =>
    "offset must be a timedelta strictly between -timedelta(hours=24) and timedelta(hours=24), not "
      ++ span m ++ "."

end ChangeImpact
