import LogShipper.Calendar.Date

/-!
# Instants

A point in time by its date and time of day in UTC, to the nanosecond. A minute may have a
sixty-first second.
-/

namespace LogShipper.Calendar

/-- A point in time, in UTC. -/
structure Instant where
  date : Date
  hour : Nat
  minute : Nat
  second : Nat
  nanosecond : Nat
deriving DecidableEq, Repr

namespace Instant

/-- The parts name a point in time; the second may be a leap second. -/
def isValid (t : Instant) : Bool :=
  t.date.isValid && t.hour < 24 && t.minute < 60 && t.second ≤ 60 && t.nanosecond < 1000000000

/-- The minutes of a day. -/
def minutesPerDay : Int := 1440

/-- The point in time whose parts are those of a clock that is ahead of UTC by some minutes, less
than a day. The date changes by one day at most. -/
def ofClock (clock : Instant) (ahead : Int) : Instant :=
  let minutes := (clock.hour : Int) * 60 + clock.minute - ahead
  let ofDay := (minutes % minutesPerDay).toNat
  let date :=
    if minutes < 0 then clock.date.previous
    else if minutesPerDay ≤ minutes then clock.date.next
    else clock.date
  { clock with date, hour := ofDay / 60, minute := ofDay % 60 }

end Instant

end LogShipper.Calendar
