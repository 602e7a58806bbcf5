import AssetAccess.Formula.Literal
import AssetAccess.Formula.Wire
import AssetAccess.Proofs.Calendar.Succession
import AssetAccess.Proofs.Text.Fields
set_option autoImplicit false

/-!
# Parts of a date

A timestamp begins with its date, and the date that is read is the one that is written
(`Timestamp.exists_eq_writeDate_append`): neither the time nor the offset moves it.  The year, the
month and the day of the month are those digits, and the day of the week is counted from a Sunday
one day after the other (`date_parts_as_written`).

The text may stand for itself under a date part, or be a text or a timestamp among the operands,
under any number of casts to a timestamp.
-/

namespace AssetAccess

open Json (keyed)
open Text

/-! ## The date at the front -/

namespace Timestamp

/-- A date is read where it is written. -/
theorem readDate?_eq_some_iff {cs rest : List Char} {d : Date} :
    readDate? cs = some (d, rest) ↔ cs = writeDate d ++ rest := by
  refine ⟨?_, ?_⟩
  · intro h
    simp only [readDate?, Option.bind_eq_bind, Option.bind_eq_some_iff, Prod.exists,
      fixed?_eq_some_iff, mark?_eq_some_iff] at h
    obtain ⟨_, _, ⟨_, rfl⟩, _, rfl, _, _, ⟨_, rfl⟩, _, rfl, _, _, ⟨_, rfl⟩, d', hd, heq⟩ := h
    cases heq
    obtain ⟨rfl, rfl, rfl⟩ := Date.of?_eq_some hd
    simp only [writeDate, List.append_assoc, List.cons_append]
  · rintro rfl
    exact readDate?_writeDate d rest

/-- A text that is read as a timestamp begins with its date. -/
theorem exists_eq_writeDate_append {cs : List Char} {t : Timestamp} (h : read? cs = some t) :
    ∃ rest, cs = writeDate t.date ++ rest := by
  simp only [read?, Option.bind_eq_bind, Option.bind_eq_some_iff, Prod.exists] at h
  obtain ⟨date, rest, hdate, _, _, hour, _, _, _, _, minute, _, _, _, _, second, _, _, nanosecond,
    _, _, offset, _, hrest⟩ := h
  have hsame : t.date = date := by
    split at hrest
    · simp only [Option.bind_eq_some_iff] at hrest
      obtain ⟨time, _, hleap⟩ := hrest
      split at hleap
      · cases hleap
        rfl
      · cases hleap
    · simp only [Option.bind_eq_some_iff] at hrest
      obtain ⟨time, _, hplain⟩ := hrest
      split at hplain
      · cases hplain
        rfl
      · cases hplain
  rw [hsame]
  exact ⟨rest, readDate?_eq_some_iff.mp hdate⟩

end Timestamp

/-! ## Operands for a date part -/

/-- An operand that says a timestamp by its text: the text itself, the timestamp, or either of
them under casts to a timestamp. -/
inductive Json.SaysTimestamp (s : String) : Json → Prop where
  | text : SaysTimestamp s (keyed "$strVal" (.string s))
  | value : SaysTimestamp s (keyed "$dateTimeVal" (.string s))
  | cast {v : Json} : SaysTimestamp s v → SaysTimestamp s (keyed "$dateTimeCast" v)

namespace Json.SaysTimestamp

variable {s : String} {v : Json}

theorem timestamp?_eq_none (h : SaysTimestamp s v) : Timestamp.decode? v = none := by
  cases h <;> rfl

theorem decode? {t : Timestamp} (h : SaysTimestamp s v)
    (hs : Timestamp.read? s.toList = some t) :
    ∃ o, Operand.decode? v = some o ∧ o.dateTime? = some t := by
  induction h with
  | text => exact ⟨.text s, rfl, hs⟩
  | value =>
      refine ⟨.dateTime t, ?_, rfl⟩
      change (Timestamp.read? s.toList).map Operand.dateTime = _
      rw [hs]
      rfl
  | @cast v h ih =>
      obtain ⟨o, ho, hdate⟩ := ih
      refine ⟨.cast .dateTime o, ?_, hdate⟩
      change (Operand.decode? v).map (Operand.cast .dateTime) = _
      rw [ho]
      rfl

end Json.SaysTimestamp

namespace DatePart

/-- The literal of a date part of a data tree. -/
def literalOf? (p : DatePart) (v : Json) : Option Scalar :=
  (Operand.decode? (keyed p.key v)).bind Operand.literal?

/-- The operand of a date part is the timestamp of a bare text, or what is read otherwise. -/
theorem decode?_keyed (p : DatePart) (v : Json) :
    Operand.decode? (keyed p.key v) =
      (((Timestamp.decode? v).map .dateTime).or (Operand.decode? v)).map (.datePart p) := by
  rw [keyed, Operand.decode?, ofKey?_key]
  cases Timestamp.decode? v with
  | none => rfl
  | some t => rfl

/-- However the timestamp is said, the part is that of its date. -/
theorem literalOf?_eq {p : DatePart} {s : String} {v : Json} {t : Timestamp}
    (hs : Timestamp.read? s.toList = some t) (hv : v = .string s ∨ Json.SaysTimestamp s v) :
    p.literalOf? v = some (.integer (p.ofDate t.date)) := by
  rw [literalOf?, decode?_keyed]
  rcases hv with rfl | hv
  · rw [Timestamp.decode?, hs]
    rfl
  · obtain ⟨o, ho, hdate⟩ := hv.decode? hs
    rw [hv.timestamp?_eq_none, ho]
    change (o.dateTime?.map fun t => Scalar.integer (p.ofDate t.date)) = _
    rw [hdate]
    rfl

end DatePart

/-- The parts of a date are those of the date that is written.  A text that is read as a timestamp
begins with the digits of a year, a month and a day, and these are the literals of the parts,
whatever follows them, and however the timestamp is said.  The day of the week is the one number
for each date that is from one to seven, goes on by one with each day, and from seven to one, and
is one on a Sunday; there is a next day up to the last day of the calendar.  A text that is not
read as a timestamp has no parts. -/
theorem date_parts_as_written :
    (∀ (s : String) (t : Timestamp), Timestamp.read? s.toList = some t →
      (∃ rest, s.toList = padded 4 t.date.year ++ '-' ::
        (padded 2 t.date.month ++ '-' :: (padded 2 t.date.day ++ rest))) ∧
      ∀ v, v = .string s ∨ Json.SaysTimestamp s v →
        DatePart.literalOf? .year v = some (.integer t.date.year) ∧
        DatePart.literalOf? .month v = some (.integer t.date.month) ∧
        DatePart.literalOf? .dayOfMonth v = some (.integer t.date.day) ∧
        DatePart.literalOf? .dayOfWeek v = some (.integer t.date.weekday)) ∧
    (∀ f : Date → Nat, f = Date.weekday ↔
      (∀ d, 1 ≤ f d ∧ f d ≤ 7) ∧ (∀ d e, d.next? = some e → f e = f d % 7 + 1) ∧
        f Date.knownSunday = 1) ∧
    (∀ d : Date, d ≠ Date.last → ∃ e, d.next? = some e) ∧
    (∀ s : String, Timestamp.read? s.toList = none → ∀ p : DatePart,
      Operand.decode? (keyed p.key (keyed "$strVal" (.string s))) =
        some (.datePart p (.text s)) ∧
      (Operand.datePart p (.text s)).literal? = none) := by
  refine ⟨?_, Date.eq_weekday_iff, fun d => Date.exists_next?, ?_⟩
  · intro s t hs
    refine ⟨?_, fun v hv => ⟨DatePart.literalOf?_eq hs hv, DatePart.literalOf?_eq hs hv,
      DatePart.literalOf?_eq hs hv, DatePart.literalOf?_eq hs hv⟩⟩
    obtain ⟨rest, hrest⟩ := Timestamp.exists_eq_writeDate_append hs
    refine ⟨rest, ?_⟩
    simpa only [Timestamp.writeDate, List.append_assoc, List.cons_append] using hrest
  · intro s hs p
    refine ⟨?_, ?_⟩
    · rw [DatePart.decode?_keyed]
      rfl
    · rw [Operand.literal?, Operand.dateTime?, hs]
      rfl

/-! ## Around a leap day -/

/-- The evening of a leap day, which is the next morning in UTC. -/
def leapEvening : Timestamp :=
  (Timestamp.read? "2024-02-29T23:30:00-05:00".toList).get (by decide +kernel)

/-- A leap second on the day after, which belongs to the leap day in UTC. -/
def leapSecond : Timestamp :=
  (Timestamp.read? "2024-03-01T04:29:60+04:30".toList).get (by decide +kernel)

/-- The parts are those of the written dates, a Thursday and a Friday, whatever the dates in UTC
are.  In a year without a leap day there are none. -/
theorem leap_day_parts :
    Timestamp.read? "2024-02-29T23:30:00-05:00".toList = some leapEvening ∧
    Timestamp.read? "2024-03-01T04:29:60+04:30".toList = some leapSecond ∧
    (DatePart.literalOf? .month (.string "2024-02-29T23:30:00-05:00") = some (.integer 2) ∧
      DatePart.literalOf? .dayOfMonth (.string "2024-02-29T23:30:00-05:00") =
        some (.integer 29)) ∧
    (Json.SaysTimestamp "2024-03-01T04:29:60+04:30" (keyed "$dateTimeCast"
        (keyed "$strVal" (.string "2024-03-01T04:29:60+04:30"))) ∧
      DatePart.literalOf? .dayOfWeek (keyed "$dateTimeCast"
        (keyed "$strVal" (.string "2024-03-01T04:29:60+04:30"))) = some (.integer 6)) ∧
    (leapEvening.date ≠ Date.last ∧ leapEvening.date.next? = some leapSecond.date ∧
      leapEvening.date.weekday = 5 ∧ leapSecond.date.weekday = 6) ∧
    Timestamp.read? "2023-02-29T23:30:00-05:00".toList = none ∧
    (Operand.datePart .dayOfMonth (.text "2023-02-29T23:30:00-05:00")).literal? = none := by
  have hevening : Timestamp.read? "2024-02-29T23:30:00-05:00".toList = some leapEvening :=
    (Option.some_get _).symm
  have hsecond : Timestamp.read? "2024-03-01T04:29:60+04:30".toList = some leapSecond :=
    (Option.some_get _).symm
  have hnone : Timestamp.read? "2023-02-29T23:30:00-05:00".toList = none := by decide +kernel
  have hcast : Json.SaysTimestamp "2024-03-01T04:29:60+04:30" (keyed "$dateTimeCast"
      (keyed "$strVal" (.string "2024-03-01T04:29:60+04:30"))) := .cast .text
  have hnotLast : leapEvening.date ≠ Date.last := by decide +kernel
  have hnext : leapEvening.date.next? = some leapSecond.date := by decide +kernel
  have hfebruary : leapEvening.date.month = 2 ∧ leapEvening.date.day = 29 := by decide +kernel
  have hthursday : leapEvening.date.weekday = 5 := by decide +kernel
  obtain ⟨hparts, hweekdays, _, hrejected⟩ := date_parts_as_written
  obtain ⟨_, hmonth, hday, _⟩ := (hparts _ _ hevening).2 _ (.inl rfl)
  obtain ⟨_, _, _, hweekday⟩ := (hparts _ _ hsecond).2 _ (.inr hcast)
  obtain ⟨_, hadvance, _⟩ := (hweekdays Date.weekday).mp rfl
  have hfriday : leapSecond.date.weekday = 6 := by rw [hadvance _ _ hnext, hthursday]
  rw [hfebruary.1] at hmonth
  rw [hfebruary.2] at hday
  rw [hfriday] at hweekday
  exact ⟨hevening, hsecond, ⟨hmonth, hday⟩, ⟨hcast, hweekday⟩,
    ⟨hnotLast, hnext, hthursday, hfriday⟩, hnone, (hrejected _ hnone .dayOfMonth).2⟩

end AssetAccess
