import StructLayout.Text.Digit

/-!
# Dates and times

A settings file may name a day, a time of day, or both, and then perhaps how far the clock is ahead of
universal time.  Days are those of the Gregorian calendar from year one on.  Two texts stand for a
moment: the one people write (`Moment.text`), and the notation of messages inside lists and objects
(`Moment.written`), which leaves out seconds that are zero.
-/

namespace StructLayout

structure Day where
  year : Nat
  month : Nat
  day : Nat
deriving DecidableEq, Repr, Inhabited

/-- A time of day, down to the microsecond. -/
structure ClockTime where
  hour : Nat
  minute : Nat
  second : Nat
  microsecond : Nat
deriving DecidableEq, Repr, Inhabited

/-- A day, a time of day, or both, with the minutes by which the clock is ahead if they are known. -/
inductive Moment where
  | day (d : Day)
  | time (t : ClockTime)
  | dayTime (d : Day) (t : ClockTime) (ahead : Option Int)
deriving DecidableEq, Repr, Inhabited

/-! ### The calendar -/

def isLeapYear (year : Nat) : Bool := year % 4 = 0 && (year % 100 != 0 || year % 400 = 0)

def daysInMonth (year month : Nat) : Nat :=
  if month = 2 then (if isLeapYear year then 29 else 28)
  else if [4, 6, 9, 11].contains month then 30
  else 31

def Day.isInCalendar (d : Day) : Bool :=
  1 ≤ d.year && 1 ≤ d.month && d.month ≤ 12 && 1 ≤ d.day && d.day ≤ daysInMonth d.year d.month

/-! ### As text -/

def zeroPadded (width n : Nat) : String :=
  let digits := Text.natDigits n
  String.ofList (List.replicate (width - digits.length) '0' ++ digits)

def Day.text (d : Day) : String :=
  zeroPadded 4 d.year ++ "-" ++ zeroPadded 2 d.month ++ "-" ++ zeroPadded 2 d.day

def ClockTime.text (t : ClockTime) : String :=
  zeroPadded 2 t.hour ++ ":" ++ zeroPadded 2 t.minute ++ ":" ++ zeroPadded 2 t.second ++
    if t.microsecond = 0 then "" else "." ++ zeroPadded 6 t.microsecond

def aheadText (minutes : Int) : String :=
  (if minutes < 0 then "-" else "+") ++ zeroPadded 2 (minutes.natAbs / 60) ++ ":" ++
    zeroPadded 2 (minutes.natAbs % 60)

namespace Moment

def kindName : Moment → String
  | .day _ => "datetime.date"
  | .time _ => "datetime.time"
  | .dayTime _ _ _ => "datetime.datetime"

def text : Moment → String
  | .day d => d.text
  | .time t => t.text
  | .dayTime d t ahead => d.text ++ " " ++ t.text ++ (ahead.map aheadText).getD ""

/-- The numbers of a time, without the last ones that are zero; hours and minutes always show. -/
def timeNumbers (t : ClockTime) : List Nat :=
  if t.microsecond != 0 then [t.hour, t.minute, t.second, t.microsecond]
  else if t.second != 0 then [t.hour, t.minute, t.second]
  else [t.hour, t.minute]

/-- How far a clock is ahead in the notation of messages: full days, then seconds that are not
negative. -/
def aheadNotation (minutes : Int) : String :=
  let number (n : Int) := Text.intText n
  if minutes = 0 then "datetime.timezone.utc"
  else if minutes < 0 then
    "datetime.timezone(datetime.timedelta(days=-1, seconds=" ++ number (86400 + minutes * 60) ++ "))"
  else "datetime.timezone(datetime.timedelta(seconds=" ++ number (minutes * 60) ++ "))"

/-- A moment in the notation of messages. -/
def written (m : Moment) : String :=
  let numbers (ns : List Nat) := ", ".intercalate (ns.map fun (n : Nat) => Text.intText n)
  let arguments := match m with
    | .day d => numbers [d.year, d.month, d.day]
    | .time t => numbers (timeNumbers t)
    | .dayTime d t ahead =>
      numbers ([d.year, d.month, d.day] ++ timeNumbers t) ++
        (ahead.map fun minutes => ", tzinfo=" ++ aheadNotation minutes).getD ""
  m.kindName ++ "(" ++ arguments ++ ")"

example : (dayTime ⟨1979, 5, 27⟩ ⟨7, 32, 0, 500000⟩ (some (-420))).text =
    "1979-05-27 07:32:00.500000-07:00" := by decide +kernel

end Moment

end StructLayout
