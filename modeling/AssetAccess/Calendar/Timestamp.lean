import AssetAccess.Calendar.Date
import AssetAccess.Calendar.TimeOfDay
set_option autoImplicit false

/-!
# Timestamps

A date and a time of day to the nanosecond, as written at some offset from UTC, with
the texts that stand for them:

* `read?` accepts `YYYY-MM-DD`, any one ASCII character, `HH:MM:SS`, optionally a point
  and digits, then `Z` or a signed `HH:MM`.  Digits beyond the nanosecond are dropped.
* `write` is the same form with only the fraction digits that are needed.
* `writeMillis` always has three fraction digits.  Literals are compared in this form.

A leap second is accepted where one can occur, in the last minute of a month in UTC,
and stands for the last nanosecond before it.
-/

namespace AssetAccess

open Text

/-- A signed distance from UTC, less than a day. -/
structure Offset where
  minutes : Int
  valid : -1440 < minutes ∧ minutes < 1440
  deriving DecidableEq

namespace Offset

/-- UTC itself. -/
def utc : Offset := ⟨0, by decide⟩

instance : Inhabited Offset := ⟨utc⟩

/-- The offset of a sign, hours and minutes. -/
def of? (negative : Bool) (hour minute : Nat) : Option Offset :=
  if h : hour < 24 ∧ minute < 60 then
    some ⟨if negative then -((hour * 60 + minute : Nat) : Int) else (hour * 60 + minute : Nat), by
      split <;> omega⟩
  else none

/-- `Z` for UTC, else a sign and `HH:MM`. -/
def write (o : Offset) : List Char :=
  if o.minutes = 0 then ['Z']
  else
    (if o.minutes < 0 then '-' else '+') :: padded 2 (o.minutes.natAbs / 60) ++
      ':' :: padded 2 (o.minutes.natAbs % 60)

/-- An offset, and nothing after it. -/
def read? : List Char → Option Offset
  | [] => none
  | c :: cs =>
    if c = 'Z' ∨ c = 'z' then (if cs.isEmpty then some utc else none)
    else if c = '+' ∨ c = '-' then do
      let (hour, cs) ← fixed? 2 cs
      let cs ← mark? ':' cs
      let (minute, cs) ← fixed? 2 cs
      if cs.isEmpty then of? (c = '-') hour minute else none
    else none

theorem of?_natAbs (o : Offset) :
    of? (decide (o.minutes < 0)) (o.minutes.natAbs / 60) (o.minutes.natAbs % 60) = some o := by
  obtain ⟨m, hm⟩ := o
  have hv : m.natAbs / 60 < 24 ∧ m.natAbs % 60 < 60 := by omega
  simp only [of?, dif_pos hv, Option.some.injEq, mk.injEq]
  by_cases h : m < 0
  · simp only [h, decide_true, if_true]; omega
  · simp only [h, decide_false, Bool.false_eq_true, if_false]; omega

/-- What is written for an offset reads back as that offset. -/
theorem read?_write (o : Offset) : read? o.write = some o := by
  obtain ⟨m, hm⟩ := o
  have hof := of?_natAbs ⟨m, hm⟩
  simp only at hof
  unfold write; split
  · rename_i h
    simp only at h
    subst h; rfl
  · have hh := fixed?_padded_two (m.natAbs / 60) (':' :: padded 2 (m.natAbs % 60)) (by omega)
    have hn := fixed?_padded_two (m.natAbs % 60) [] (by omega)
    rw [List.append_nil] at hn
    by_cases h : m < 0
    · simp [read?, h, hh, mark?, hn] at hof ⊢; exact hof
    · simp [read?, h, hh, mark?, hn] at hof ⊢; exact hof

end Offset

/-- A point in time as written at an offset from UTC. -/
structure Timestamp where
  date : Date
  time : TimeOfDay
  nanosecond : Nat
  offset : Offset
  nanosecond_lt : nanosecond < 1000000000
  deriving DecidableEq

namespace Timestamp

/-- The start of 1970 in UTC. -/
def epoch : Timestamp := ⟨default, default, 0, Offset.utc, by decide⟩

instance : Inhabited Timestamp := ⟨epoch⟩

/-- Minutes from the midnight that begins the written date to the instant's minute in UTC;
negative, or a day and more, where the UTC date is another one. -/
def utcMinutes (t : Timestamp) : Int :=
  ((t.time.hour * 60 + t.time.minute : Nat) : Int) - t.offset.minutes

/-- The hour and minute of the instant in UTC. -/
def utcMinuteOfDay (t : Timestamp) : TimeOfDay :=
  let m := (t.utcMinutes % 1440).toNat
  ⟨m / 60, m % 60, 0, by omega⟩

/-- The instant's UTC date is not after the last one of the calendar.  (An instant of year 0
may have a UTC date in the year before.) -/
def utcDateSupported (t : Timestamp) : Bool :=
  !(t.date.year == 9999 && t.date.month == 12 && t.date.day == 31 && decide (1440 ≤ t.utcMinutes))

/-- The instant lies in the last minute of a month in UTC, where leap seconds are inserted.
An earlier UTC date ends its month exactly when the written date begins one. -/
def endsMonthInUtc (t : Timestamp) : Bool :=
  let last := daysInMonth t.date.year t.date.month
  let m := t.utcMinutes
  m % 1440 == 1439 &&
    (if m < 0 then t.date.day == 1
     else if m < 1440 then t.date.day == last
     else t.date.day + 1 == last)

/-! ## Writing -/

/-- `YYYY-MM-DD`. -/
def writeDate (d : Date) : List Char :=
  padded 4 d.year ++ '-' :: padded 2 d.month ++ '-' :: padded 2 d.day

/-- Everything before the fraction. -/
def writeSecond (t : Timestamp) : List Char := writeDate t.date ++ 'T' :: t.time.writeFull

/-- The fraction with its point, trailing zeros dropped; nothing for a whole second. -/
def writeFraction (nanosecond : Nat) : List Char :=
  if nanosecond = 0 then []
  else '.' :: ((padded 9 nanosecond).reverse.dropWhile (· == '0')).reverse

/-- The timestamp with the fraction digits it needs. -/
def write (t : Timestamp) : List Char :=
  t.writeSecond ++ writeFraction t.nanosecond ++ t.offset.write

/-- The timestamp with three fraction digits, further ones dropped. -/
def writeMillis (t : Timestamp) : List Char :=
  t.writeSecond ++ '.' :: padded 3 (t.nanosecond / 1000000) ++ t.offset.write

/-! ## Reading -/

/-- Fraction digits as nanoseconds, from the digit worth `unit` on; what follows the digits. -/
def readFraction (unit : Nat) (sum : Nat) : List Char → Nat × List Char
  | [] => (sum, [])
  | c :: cs =>
    match digit? c with
    | some d => readFraction (unit / 10) (sum + d * unit) cs
    | none => (sum, c :: cs)

/-- The optional fraction: at least one digit behind its point. -/
def readFraction? : List Char → Option (Nat × List Char)
  | '.' :: c :: cs =>
    if c.isDigit then some (readFraction 100000000 0 (c :: cs)) else none
  | ['.'] => none
  | cs => some (0, cs)

/-- `YYYY-MM-DD`, and what follows. -/
def readDate? (cs : List Char) : Option (Date × List Char) := do
  let (year, cs) ← fixed? 4 cs
  let cs ← mark? '-' cs
  let (month, cs) ← fixed? 2 cs
  let cs ← mark? '-' cs
  let (day, cs) ← fixed? 2 cs
  let date ← Date.of? year month day
  some (date, cs)

/-- One ASCII character of any kind. -/
def dropSeparator? : List Char → Option (List Char)
  | [] => none
  | c :: cs => if c.toNat < 128 then some cs else none

/-- A timestamp, and nothing else. -/
def read? (cs : List Char) : Option Timestamp := do
  let (date, cs) ← readDate? cs
  let cs ← dropSeparator? cs
  let (hour, cs) ← fixed? 2 cs
  let cs ← mark? ':' cs
  let (minute, cs) ← fixed? 2 cs
  let cs ← mark? ':' cs
  let (second, cs) ← fixed? 2 cs
  let (nanosecond, cs) ← readFraction? cs
  let offset ← Offset.read? cs
  if second = 60 then
    let time ← TimeOfDay.of? hour minute 59
    let t : Timestamp := ⟨date, time, 999999999, offset, by decide⟩
    if t.endsMonthInUtc then some t else none
  else
    let time ← TimeOfDay.of? hour minute second
    if h : nanosecond < 1000000000 then some ⟨date, time, nanosecond, offset, h⟩ else none

end Timestamp

end AssetAccess
