import SqlWeave.Number.Digits

/-!
# Dates, clock times and durations

Calendar dates, times of day with microseconds, and signed durations, with their
plain texts.  A duration keeps whole days of either sign and a remainder of
seconds and microseconds that is never negative.
-/

namespace SqlWeave

open Number

/-- A calendar date. -/
structure Date where
  year : Nat
  month : Nat
  day : Nat
  deriving DecidableEq, Repr

/-- A time of day. -/
structure Clock where
  hour : Nat
  minute : Nat
  second : Nat
  microsecond : Nat
  deriving DecidableEq, Repr

/-- A signed length of time: `days` may be negative, the rest is not. -/
structure Duration where
  days : Int
  seconds : Nat
  microseconds : Nat
  deriving DecidableEq, Repr

/-- `.ffffff`, or nothing for zero microseconds. -/
def fractionText (microsecond : Nat) : List Char :=
  if microsecond = 0 then [] else '.' :: padded 6 microsecond

/-- `YYYY-MM-DD`. -/
def Date.text (d : Date) : List Char :=
  padded 4 d.year ++ '-' :: padded 2 d.month ++ '-' :: padded 2 d.day

/-- `HH:MM:SS`, with the microseconds when there are any. -/
def Clock.text (t : Clock) : List Char :=
  padded 2 t.hour ++ ':' :: padded 2 t.minute ++ ':' :: padded 2 t.second ++
    fractionText t.microsecond

namespace Duration

/-- The number of microseconds in all. -/
def totalMicroseconds (d : Duration) : Int :=
  (d.days * 86400 + d.seconds) * 1000000 + d.microseconds

/-- `[D day[s], ]H:MM:SS[.ffffff]`, where only the days carry a sign. -/
def text (d : Duration) : List Char :=
  let days :=
    if d.days = 0 then []
    else intText d.days ++ (if d.days.natAbs = 1 then " day, " else " days, ").toList
  days ++ natText (d.seconds / 3600) ++ ':' :: padded 2 (d.seconds / 60 % 60) ++
    ':' :: padded 2 (d.seconds % 60) ++ fractionText d.microseconds

/-- `[-]HH:MM:SS[.ffffff]` with all days counted as hours. -/
def clockText (d : Duration) : List Char :=
  let total := d.totalMicroseconds
  let sign := if total < 0 then ['-'] else []
  let micros := total.natAbs
  let seconds := micros / 1000000
  sign ++ padded 2 (seconds / 3600) ++ ':' :: padded 2 (seconds / 60 % 60) ++
    ':' :: padded 2 (seconds % 60) ++ fractionText (micros % 1000000)

/-- No time at all. -/
def isZero (d : Duration) : Bool :=
  d.days == 0 && d.seconds == 0 && d.microseconds == 0

end Duration
end SqlWeave
