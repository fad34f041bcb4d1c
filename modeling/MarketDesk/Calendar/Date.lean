/-!
Dates of the Gregorian calendar, extended to years before its introduction. A date knows the day
before and the day after it, its number within its year, its day of the week and its week in the
sense of ISO 8601. Years reach from -262143 to 262142.
-/

namespace MarketDesk

/-- Every fourth year is a leap year, of the full centuries every fourth. -/
def isLeapYear (y : Int) : Bool :=
  y % 4 == 0 && (y % 100 != 0 || y % 400 == 0)

/-- The number of days of a month. -/
def daysInMonth (y : Int) (m : Nat) : Nat :=
  match m with
  | 2 => if isLeapYear y then 29 else 28
  | 4 | 6 | 9 | 11 => 30
  | _ => 31

/-- The number of days of the first `n` months. -/
def daysInMonths (y : Int) : Nat → Nat
  | 0 => 0
  | n + 1 => daysInMonths y n + daysInMonth y (n + 1)

def daysInYear (y : Int) : Nat := if isLeapYear y then 366 else 365

def firstYear : Int := -262143

def lastYear : Int := 262142

/-- The calendar has a date of this year, month and day. -/
structure IsDate (year : Int) (month day : Nat) : Prop where
  first_le : firstYear ≤ year
  le_last : year ≤ lastYear
  month_pos : 1 ≤ month
  month_le : month ≤ 12
  day_pos : 1 ≤ day
  day_le : day ≤ daysInMonth year month

theorem isDate_iff {y : Int} {m d : Nat} :
    IsDate y m d ↔ (firstYear ≤ y ∧ y ≤ lastYear) ∧ (1 ≤ m ∧ m ≤ 12) ∧
      1 ≤ d ∧ d ≤ daysInMonth y m :=
  ⟨fun h => ⟨⟨h.1, h.2⟩, ⟨h.3, h.4⟩, h.5, h.6⟩,
    fun ⟨⟨a, b⟩, ⟨c, d⟩, e, f⟩ => ⟨a, b, c, d, e, f⟩⟩

instance (y : Int) (m d : Nat) : Decidable (IsDate y m d) :=
  decidable_of_iff' _ isDate_iff

/-- A day of the calendar. -/
structure Date where
  year : Int
  month : Nat
  day : Nat
  isDate : IsDate year month day := by decide
deriving DecidableEq

namespace Date

/-- The date of these numbers, if there is one. -/
def of? (y : Int) (m d : Nat) : Option Date :=
  if h : IsDate y m d then some ⟨y, m, d, h⟩ else none

/-- The day after, if the calendar has one. -/
def next? (t : Date) : Option Date :=
  if t.day < daysInMonth t.year t.month then of? t.year t.month (t.day + 1)
  else if t.month < 12 then of? t.year (t.month + 1) 1
  else of? (t.year + 1) 1 1

/-- The day before, if the calendar has one. -/
def previous? (t : Date) : Option Date :=
  if 1 < t.day then of? t.year t.month (t.day - 1)
  else if 1 < t.month then of? t.year (t.month - 1) (daysInMonth t.year (t.month - 1))
  else of? (t.year - 1) 12 31

/-- The number of the day within its year, from one. -/
def ordinal (t : Date) : Nat := daysInMonths t.year (t.month - 1) + t.day

/-- The number of days from the first day of the year 1, which is day one. -/
def dayNumber (t : Date) : Int :=
  let y := t.year - 1
  y * 365 + y / 4 - y / 100 + y / 400 + t.ordinal

/-- The number of days since the first of January 1970. -/
def sinceEpoch (t : Date) : Int := t.dayNumber - 719163

/-- The days since the last Monday. -/
def sinceMonday (t : Date) : Nat := ((t.dayNumber - 1) % 7).toNat

/-- The days since the last Sunday. -/
def sinceSunday (t : Date) : Nat := (t.sinceMonday + 1) % 7

def quarter (t : Date) : Nat := (t.month - 1) / 3 + 1

/-- The week of the year when the days of the year before the first start of a week are week zero;
`since` is the number of days since the last start of a week. -/
def weekOfYear (t : Date) (since : Nat) : Nat := (t.ordinal + 6 - since) / 7

/-- The number of weeks of a year whose last day is `since` days after a Monday. A year has 53 weeks
if it ends on a Thursday or, as a leap year, on a Friday. -/
def weeksEnding (y : Int) (since : Nat) : Nat :=
  if since = 3 ∨ (since = 4 ∧ isLeapYear y) then 53 else 52

/-- Year and number of the week: a week belongs to the year that has its Thursday. -/
def isoWeek (t : Date) : Int × Nat :=
  let w := (t.ordinal + 9 - t.sinceMonday) / 7
  if w = 0 then
    (t.year - 1, weeksEnding (t.year - 1) ((t.sinceMonday + 7 - t.ordinal % 7) % 7))
  else if w ≤ weeksEnding t.year ((t.sinceMonday + (daysInYear t.year - t.ordinal)) % 7) then
    (t.year, w)
  else (t.year + 1, 1)

/-- Order of dates. -/
def cmp (a b : Date) : Ordering :=
  (compare a.year b.year).then ((compare a.month b.month).then (compare a.day b.day))

end Date

end MarketDesk
