import FileWatch.Number.Binary64
/-!
Moments: a civil date and time of the Gregorian calendar at an offset from universal time, and the
second of Unix time that stands for one in a query. A civil time without an offset is a time at the
place of the platform, which alone knows its second.
-/

namespace FileWatch

def isLeapYear (year : Nat) : Bool := year % 4 = 0 && (year % 100 != 0 || year % 400 = 0)

def monthLengths (year : Nat) : List Nat :=
  [31, if isLeapYear year then 29 else 28, 31, 30, 31, 30, 31, 31, 30, 31, 30, 31]

structure CivilTime where
  year : Nat
  month : Nat
  day : Nat
  hour : Nat
  minute : Nat
  second : Nat
  microsecond : Nat
  date_valid : 1 ≤ year ∧ year ≤ 9999 ∧ 1 ≤ month ∧ month ≤ 12 ∧ 1 ≤ day ∧
    day ≤ (monthLengths year).getD (month - 1) 0
  time_valid : hour < 24 ∧ minute < 60 ∧ second < 60 ∧ microsecond < 1000000
  deriving DecidableEq, Repr

/-- A civil time at a place whose clocks run `offset` microseconds ahead of universal time. -/
structure Moment extends CivilTime where
  offset : Int
  offset_valid : offset.natAbs < 86400000000
  deriving DecidableEq, Repr

def padded (width n : Nat) : Text := Text.padStart '0' width (Text.ofNat n)

namespace CivilTime

def ofFields? (year month day hour minute second microsecond : Nat) : Option CivilTime :=
  if h : (1 ≤ year ∧ year ≤ 9999 ∧ 1 ≤ month ∧ month ≤ 12 ∧ 1 ≤ day ∧
      day ≤ (monthLengths year).getD (month - 1) 0) ∧
      (hour < 24 ∧ minute < 60 ∧ second < 60 ∧ microsecond < 1000000) then
    some ⟨year, month, day, hour, minute, second, microsecond, h.1, h.2⟩
  else none

def at? (t : CivilTime) (offset : Int) : Option Moment :=
  if h : offset.natAbs < 86400000000 then some ⟨t, offset, h⟩ else none

/-- Days from the first of January of year 1 to the date, both ends counted. -/
def dayNumber (t : CivilTime) : Nat :=
  let past := t.year - 1
  365 * past + past / 4 - past / 100 + past / 400 +
    ((monthLengths t.year).take (t.month - 1)).foldl (· + ·) 0 + t.day

def display (t : CivilTime) : Text :=
  let fraction : Text := if t.microsecond = 0 then [] else '.' :: padded 6 t.microsecond
  padded 4 t.year ++ ("-" : Text) ++ padded 2 t.month ++ ("-" : Text) ++ padded 2 t.day ++
    (" " : Text) ++ padded 2 t.hour ++ (":" : Text) ++ padded 2 t.minute ++ (":" : Text) ++
    padded 2 t.second ++ fraction

def numbers (t : CivilTime) : List Nat :=
  let tail :=
    if t.microsecond != 0 then [t.second, t.microsecond]
    else if t.second != 0 then [t.second]
    else []
  [t.year, t.month, t.day, t.hour, t.minute] ++ tail

def literal (t : CivilTime) : Text :=
  ("datetime.datetime(" : Text) ++ Text.join ", " (t.numbers.map Text.ofNat) ++ ")"

end CivilTime

inductive LocalTimeError where
  | badValue (message : Text)
  | tooLarge (message : Text)
  | system (message : Text)
  deriving DecidableEq, Repr

def LocalTimeError.message : LocalTimeError → Text
  | .badValue message | .tooLarge message | .system message => message

/-- The Unix second that stands for a civil time in a query, where the platform takes it for the
time at its own place. -/
abbrev LocalTime := CivilTime → Except LocalTimeError Int

namespace Moment

def epochDay : Nat := 719163

def unixMicroseconds (m : Moment) : Int :=
  let days : Int := m.dayNumber - epochDay
  let minutes : Int := (days * 24 + m.hour) * 60 + m.minute
  (minutes * 60 + m.second) * 1000000 + m.microsecond - m.offset

/-- The Unix second that stands for a moment: the seconds since the epoch as the nearest double,
cut off towards the epoch. -/
def unixSecond (m : Moment) : Int :=
  let t := m.unixMicroseconds
  ((Binary64.ofRatio (t < 0) t.natAbs 1000000).truncate?).getD 0

def offsetDisplay (offset : Int) : Text :=
  let sign : Text := if offset < 0 then "-" else "+"
  let seconds := offset.natAbs / 1000000
  let microseconds := offset.natAbs % 1000000
  let tail : Text :=
    if microseconds != 0 then
      (":" : Text) ++ padded 2 (seconds % 60) ++ "." ++ padded 6 microseconds
    else if seconds % 60 != 0 then (":" : Text) ++ padded 2 (seconds % 60)
    else []
  sign ++ padded 2 (seconds / 3600) ++ (":" : Text) ++ padded 2 (seconds / 60 % 60) ++ tail

def display (m : Moment) : Text := m.toCivilTime.display ++ offsetDisplay m.offset

/-- An offset as a constructor call. A negative one is a day back and the rest of the day on, and
parts of zero are left out. -/
def zoneLiteral (offset : Int) : Text :=
  let part (name : String) (n : Int) : List Text :=
    if n = 0 then [] else [Text.ofString name ++ "=" ++ Text.ofInt n]
  let parts := part "days" (offset / 86400000000) ++
    part "seconds" (offset % 86400000000 / 1000000) ++ part "microseconds" (offset % 1000000)
  if offset = 0 then "datetime.timezone.utc"
  else ("datetime.timezone(datetime.timedelta(" : Text) ++ Text.join ", " parts ++ "))"

def literal (m : Moment) : Text :=
  ("datetime.datetime(" : Text) ++ Text.join ", " (m.numbers.map Text.ofNat) ++ ", tzinfo=" ++
    zoneLiteral m.offset ++ ")"

end Moment

end FileWatch
