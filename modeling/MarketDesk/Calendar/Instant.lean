import MarketDesk.Calendar.Date

/-!
Moments in universal time, to the nanosecond. A leap second is counted as the last second of its
minute with a thousand million nanoseconds or more.
-/

namespace MarketDesk

/-- The number of nanoseconds of a second. -/
def secondNanos : Nat := 1000000000

/-- A moment. -/
structure Instant where
  date : Date
  /-- The second of the day. -/
  second : Nat
  nano : Nat
  second_lt : second < 86400 := by decide
  nano_lt : nano < 2 * secondNanos := by decide
  /-- Only the last second of a minute can be a leap second. -/
  leap : secondNanos ≤ nano → second % 60 = 59 := by decide
deriving DecidableEq

namespace Instant

/-- The moment of a date and a time of day, if there is one. The sixtieth second is a leap
second. -/
def of? (date : Date) (hour minute second nano : Nat) : Option Instant :=
  let s := min second 59
  let n := if second = 60 then nano + secondNanos else nano
  let t := hour * 3600 + minute * 60 + s
  if h : t < 86400 ∧ n < 2 * secondNanos ∧ (secondNanos ≤ n → t % 60 = 59) then
    some ⟨date, t, n, h.1, h.2.1, h.2.2⟩
  else none

def hour (t : Instant) : Nat := t.second / 3600

def minute (t : Instant) : Nat := t.second / 60 % 60

/-- The second of the minute, sixty for a leap second. -/
def secondOfMinute (t : Instant) : Nat := t.second % 60 + t.nano / secondNanos

/-- The nanoseconds of the second. -/
def nanoOfSecond (t : Instant) : Nat := t.nano % secondNanos

/-- Seconds since the first of January 1970, leap seconds not counted. -/
def unixSeconds (t : Instant) : Int := t.date.sinceEpoch * 86400 + t.second

/-- The moment that is later by so many minutes, which may be negative and are fewer than a day;
none outside the calendar. -/
def later? (t : Instant) (minutes : Int) : Option Instant :=
  let s : Int := t.second + minutes * 60
  let day := if s < 0 then t.date.previous? else if s < 86400 then some t.date else t.date.next?
  let second := (s % 86400).toNat
  day.map fun date =>
    ⟨date, second, t.nano, by omega, t.nano_lt, by have := t.leap; omega⟩

/-- Order in time. -/
def cmp (a b : Instant) : Ordering :=
  (a.date.cmp b.date).then ((compare a.second b.second).then (compare a.nano b.nano))

end Instant

end MarketDesk
