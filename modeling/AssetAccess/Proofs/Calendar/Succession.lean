import AssetAccess.Proofs.Calendar.Chronology
set_option autoImplicit false

/-!
# One day after the other

The day after a date is the next one of its month, or the first one of the next month or year
(`Date.next?`).  Days are counted in this order (`Date.dayNumber_of_next?`), so that the weekday
goes on by one each day, past the ends of months and years.  Every date but the first of the
calendar is the day after another one, and there is only one way to give all of them weekdays
that go on like this and have a Sunday where it belongs (`Date.eq_weekday_iff`).
-/

namespace AssetAccess.Date

/-- The day after a date; the calendar ends with the year 9999. -/
def next? (d : Date) : Option Date :=
  if d.day < daysInMonth d.year d.month then of? d.year d.month (d.day + 1)
  else if d.month < 12 then of? d.year (d.month + 1) 1
  else of? (d.year + 1) 1 1

/-- The first day of the calendar. -/
def first : Date := ⟨0, 1, 1, by decide⟩

/-- The last day of the calendar. -/
def last : Date := ⟨9999, 12, 31, by decide⟩

theorem of?_eq_some_iff {year month day : Nat} {d : Date} :
    of? year month day = some d ↔ d.year = year ∧ d.month = month ∧ d.day = day := by
  refine ⟨of?_eq_some, ?_⟩
  rintro ⟨rfl, rfl, rfl⟩
  exact of?_self d

theorem daysInMonth_pos (year month : Nat) : 0 < daysInMonth year month := by
  rw [daysInMonth]
  split
  · split <;> decide
  · split <;> decide

/-- One date follows another one within a month, past the end of a month, or past the end of a
year. -/
theorem next?_eq_some_iff {d e : Date} :
    d.next? = some e ↔
      (d.day < daysInMonth d.year d.month ∧
        e.year = d.year ∧ e.month = d.month ∧ e.day = d.day + 1) ∨
      (d.day = daysInMonth d.year d.month ∧ d.month < 12 ∧
        e.year = d.year ∧ e.month = d.month + 1 ∧ e.day = 1) ∨
      (d.day = daysInMonth d.year d.month ∧ d.month = 12 ∧
        e.year = d.year + 1 ∧ e.month = 1 ∧ e.day = 1) := by
  obtain ⟨_, _, hmonth, _, hday⟩ := d.valid
  rw [next?]
  split
  · rw [of?_eq_some_iff]
    omega
  · split
    · rw [of?_eq_some_iff]
      omega
    · rw [of?_eq_some_iff]
      omega

theorem daysInMonth_december (year : Nat) : daysInMonth year 12 = 31 := rfl

/-- Every day but the last one of the calendar has a day after it. -/
theorem exists_next? {d : Date} (h : d ≠ last) : ∃ e, d.next? = some e := by
  obtain ⟨hyear, hmonth, htwelve, hday, hlength⟩ := d.valid
  by_cases hinside : d.day < daysInMonth d.year d.month
  · refine ⟨⟨d.year, d.month, d.day + 1, by omega⟩, next?_eq_some_iff.mpr (.inl ?_)⟩
    dsimp only
    omega
  · by_cases hbefore : d.month < 12
    · have hpos := daysInMonth_pos d.year (d.month + 1)
      refine ⟨⟨d.year, d.month + 1, 1, by omega⟩, next?_eq_some_iff.mpr (.inr (.inl ?_))⟩
      dsimp only
      omega
    · have hdecember : d.month = 12 := by omega
      have hend : d.day = 31 := by
        rw [hdecember, daysInMonth_december] at hlength hinside
        omega
      have hnotLast : d.year ≠ 9999 := by
        intro hyear
        cases d
        cases hyear
        cases hdecember
        cases hend
        exact h rfl
      have hpos := daysInMonth_pos (d.year + 1) 1
      refine ⟨⟨d.year + 1, 1, 1, by omega⟩, next?_eq_some_iff.mpr (.inr (.inr ?_))⟩
      dsimp only
      omega

/-- Every day but the first one of the calendar is the day after another one. -/
theorem exists_next?_eq {d : Date} (h : d ≠ first) : ∃ e : Date, e.next? = some d := by
  obtain ⟨hyear, hmonth, htwelve, hday, hlength⟩ := d.valid
  by_cases hinside : 1 < d.day
  · refine ⟨⟨d.year, d.month, d.day - 1, by omega⟩, next?_eq_some_iff.mpr (.inl ?_)⟩
    dsimp only
    omega
  · by_cases hafter : 1 < d.month
    · have hpos := daysInMonth_pos d.year (d.month - 1)
      refine ⟨⟨d.year, d.month - 1, daysInMonth d.year (d.month - 1), by omega⟩,
        next?_eq_some_iff.mpr (.inr (.inl ?_))⟩
      dsimp only
      omega
    · have hjanuary : d.month = 1 := by omega
      have hone : d.day = 1 := by omega
      have hnotFirst : d.year ≠ 0 := by
        intro hyear
        cases d
        cases hyear
        cases hjanuary
        cases hone
        exact h rfl
      have hdecember := daysInMonth_december (d.year - 1)
      refine ⟨⟨d.year - 1, 12, 31, by omega⟩, next?_eq_some_iff.mpr (.inr (.inr ?_))⟩
      dsimp only
      omega

/-- The next day is counted next. -/
theorem dayNumber_of_next? {d e : Date} (h : d.next? = some e) :
    e.dayNumber = d.dayNumber + 1 := by
  have hday := d.day_pred_add_one
  have hmonth := consecutive_months d.year (d.month - 1)
  have hyear : 365 * d.year + leapYearsBefore d.year + daysInYear d.year =
      365 * (d.year + 1) + leapYearsBefore (d.year + 1) := consecutive_years d.year
  simp only [month_pred_add_one] at hmonth
  rw [dayNumber, dayNumber]
  rcases next?_eq_some_iff.mp h with ⟨_, hy, hm, hd⟩ | ⟨hend, _, hy, hm, hd⟩ |
    ⟨hend, hlast, hy, hm, hd⟩
  · rw [hy, hm, hd]
    omega
  · rw [hy, hm, hd, ← hmonth, ← hend]
    omega
  · have htwelve := daysBeforeMonth_twelve d.year
    rw [hlast] at hmonth hend
    rw [hy, hm, hd, hlast]
    have hjanuary : daysBeforeMonth (d.year + 1) 1 = 0 := rfl
    omega

/-- What holds of the first day, and of each day after one that it holds of, holds of all days. -/
@[elab_as_elim]
theorem next_induction {P : Date → Prop} (hfirst : P first)
    (hnext : ∀ d e, d.next? = some e → P d → P e) (d : Date) : P d := by
  induction hn : d.dayNumber using Nat.strongRecOn generalizing d with
  | ind n ih =>
      by_cases h : d = first
      · rw [h]
        exact hfirst
      · obtain ⟨e, he⟩ := exists_next?_eq h
        have hcount := dayNumber_of_next? he
        exact hnext e d he (ih e.dayNumber (by omega) e rfl)

/-! ## Weekdays -/

/-- The weekday goes on by one each day, and from Saturday to Sunday. -/
theorem weekday_of_next? {d e : Date} (h : d.next? = some e) :
    e.weekday = d.weekday % 7 + 1 := by
  rw [weekday, weekday, dayNumber_of_next? h]
  omega

/-- A Sunday, the second of June 2024. -/
def knownSunday : Date := (of? 2024 6 2).get (by decide)

theorem weekday_knownSunday : knownSunday.weekday = 1 := by decide

/-- The weekdays are the only numbers from one to seven that go on by one each day, and from seven
to one, and are right on one day. -/
theorem eq_weekday_iff (f : Date → Nat) :
    f = weekday ↔
      (∀ d, 1 ≤ f d ∧ f d ≤ 7) ∧ (∀ d e, d.next? = some e → f e = f d % 7 + 1) ∧
        f knownSunday = 1 := by
  constructor
  · rintro rfl
    exact ⟨weekday_bounds, fun d e => weekday_of_next?, weekday_knownSunday⟩
  · rintro ⟨hrange, hnext, hknown⟩
    -- They are right on all days or on none, since each day decides about the next one.
    have hall : ∀ d, f d = d.weekday ↔ f first = first.weekday := by
      intro d
      induction d using next_induction with
      | hfirst => exact Iff.rfl
      | hnext d e he hd =>
          have hf := hrange d
          have hw := d.weekday_bounds
          rw [hnext d e he, weekday_of_next? he, ← hd]
          omega
    have hfirst := (hall knownSunday).mp (hknown.trans weekday_knownSunday.symm)
    exact funext fun d => (hall d).mpr hfirst

end AssetAccess.Date
