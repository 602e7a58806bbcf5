set_option autoImplicit false

/-!
# Civil dates

Days of the proleptic Gregorian calendar in the years 0 to 9999, and their weekday.
Weekdays follow from a running day number, counted from the first day of year 0.
-/

namespace AssetAccess

/-- A leap year: every fourth, but of the centuries only every fourth. -/
def isLeapYear (year : Nat) : Bool :=
  year % 4 == 0 && (year % 100 != 0 || year % 400 == 0)

/-- The length of a month. -/
def daysInMonth (year month : Nat) : Nat :=
  if month = 2 then (if isLeapYear year then 29 else 28)
  else if month = 4 ∨ month = 6 ∨ month = 9 ∨ month = 11 then 30
  else 31

/-- A day of the calendar. -/
structure Date where
  year : Nat
  month : Nat
  day : Nat
  valid : year ≤ 9999 ∧ 1 ≤ month ∧ month ≤ 12 ∧ 1 ≤ day ∧ day ≤ daysInMonth year month
  deriving DecidableEq

namespace Date

/-- The date with these numbers, if there is one. -/
def of? (year month day : Nat) : Option Date :=
  if h : year ≤ 9999 ∧ 1 ≤ month ∧ month ≤ 12 ∧ 1 ≤ day ∧ day ≤ daysInMonth year month then
    some ⟨year, month, day, h⟩
  else none

instance : Inhabited Date := ⟨⟨1970, 1, 1, by decide⟩⟩

theorem of?_self (d : Date) : of? d.year d.month d.day = some d := by
  simp only [of?, dif_pos d.valid]

theorem of?_eq_some {year month day : Nat} {d : Date} (h : of? year month day = some d) :
    d.year = year ∧ d.month = month ∧ d.day = day := by
  unfold of? at h
  split at h
  · cases h; exact ⟨rfl, rfl, rfl⟩
  · cases h

theorem day_lt (d : Date) : d.day < 32 := by
  have h := d.valid.2.2.2.2
  unfold daysInMonth at h
  split at h
  · split at h <;> omega
  · split at h <;> omega

/-- The leap years before a year. -/
def leapYearsBefore (year : Nat) : Nat := (year + 3) / 4 - (year + 99) / 100 + (year + 399) / 400

/-- The days of a year before one of its months. -/
def daysBeforeMonth (year month : Nat) : Nat :=
  ((List.range (month - 1)).map fun m => daysInMonth year (m + 1)).foldr (· + ·) 0

/-- Days since the first day of year 0. -/
def dayNumber (d : Date) : Nat :=
  365 * d.year + leapYearsBefore d.year + daysBeforeMonth d.year d.month + (d.day - 1)

/-- The weekday from one for Sunday to seven for Saturday.  Year 0 begins on a Saturday. -/
def weekday (d : Date) : Nat := (d.dayNumber + 6) % 7 + 1

theorem weekday_bounds (d : Date) : 1 ≤ d.weekday ∧ d.weekday ≤ 7 := by
  unfold weekday; omega

end Date

end AssetAccess
