import AssetAccess.Proofs.Calendar.RoundTrip
import AssetAccess.Proofs.Text.Fields
set_option autoImplicit false

/-!
# Times of day read

A time of day is read in one of two forms, `HH:MM` and `HH:MM:SS`, with white space around it.
Both forms are of a fixed width, so no text has both (`not_both_forms`), and each is exactly what
is written for the time (`readShort?_eq_some_iff`, `readLong?_eq_some_iff`).  Hence what is read
is what the digits say, and nothing else is (`times_of_day_exact`).
-/

namespace AssetAccess

open Text

namespace TimeOfDay

/-! ## The grammar -/

/-- Two decimal digits that stand for a number. -/
def TwoDigits (n : Nat) (cs : List Char) : Prop :=
  ∃ a b x y, cs = [a, b] ∧ digit? a = some x ∧ digit? b = some y ∧ n = 10 * x + y

/-- A text that says an hour, a minute and a second, in digits with colons between them.  The
second may be left out, and is zero then. -/
inductive Spells : List Char → Nat → Nat → Nat → Prop where
  | short {hh mm : List Char} {hour minute : Nat} :
      TwoDigits hour hh → TwoDigits minute mm → Spells (hh ++ ':' :: mm) hour minute 0
  | long {hh mm ss : List Char} {hour minute second : Nat} :
      TwoDigits hour hh → TwoDigits minute mm → TwoDigits second ss →
      Spells (hh ++ ':' :: (mm ++ ':' :: ss)) hour minute second

/-- Two digits are a padded number. -/
theorem twoDigits_iff {n : Nat} {cs : List Char} :
    TwoDigits n cs ↔ n < 100 ∧ cs = padded 2 n := by
  constructor
  · rintro ⟨a, b, x, y, rfl, ha, hb, rfl⟩
    have hnumeral : numeral? 0 [a, b] = some (10 * x + y) := by
      simp only [numeral?, ha, hb, Nat.mul_zero, Nat.zero_add]
    exact numeral?_eq_some_iff.mp hnumeral
  · rintro ⟨hn, rfl⟩
    exact ⟨digitChar (n / 10 % 10), digitChar (n % 10), n / 10 % 10, n % 10, rfl,
      digit?_digitChar (by omega), digit?_digitChar (by omega), by omega⟩

theorem writeFull_eq (t : TimeOfDay) :
    t.writeFull = padded 2 t.hour ++ ':' :: (padded 2 t.minute ++ ':' :: padded 2 t.second) := by
  rw [writeFull, write, List.append_assoc, List.cons_append]

/-- A text says the numbers of a time exactly when it is written for the time. -/
theorem spells_iff (cs : List Char) (t : TimeOfDay) :
    Spells cs t.hour t.minute t.second ↔ (t.second = 0 ∧ cs = t.write) ∨ cs = t.writeFull := by
  obtain ⟨hhour, hminute, hsecond⟩ := t.valid
  constructor
  · intro h
    generalize hzero : t.second = second at h
    cases h with
    | short hh mm =>
        rw [(twoDigits_iff.mp hh).2, (twoDigits_iff.mp mm).2]
        exact .inl ⟨rfl, rfl⟩
    | long hh mm ss =>
        rw [(twoDigits_iff.mp hh).2, (twoDigits_iff.mp mm).2, (twoDigits_iff.mp ss).2, writeFull_eq,
          hzero]
        exact .inr rfl
  · have hh : TwoDigits t.hour (padded 2 t.hour) := twoDigits_iff.mpr ⟨by omega, rfl⟩
    have mm : TwoDigits t.minute (padded 2 t.minute) := twoDigits_iff.mpr ⟨by omega, rfl⟩
    have ss : TwoDigits t.second (padded 2 t.second) := twoDigits_iff.mpr ⟨by omega, rfl⟩
    rintro (⟨hzero, rfl⟩ | rfl)
    · rw [hzero]
      exact .short hh mm
    · rw [writeFull_eq]
      exact .long hh mm ss

/-! ## The two forms -/

/-- The time of a text `HH:MM`, and of no other text. -/
def readShort? (cs : List Char) : Option TimeOfDay := do
  let (hour, cs) ← fixed? 2 cs
  let cs ← mark? ':' cs
  let (minute, cs) ← fixed? 2 cs
  if cs.isEmpty then of? hour minute 0 else none

/-- The time of a text `HH:MM:SS`, and of no other text. -/
def readLong? (cs : List Char) : Option TimeOfDay := do
  let (hour, cs) ← fixed? 2 cs
  let cs ← mark? ':' cs
  let (minute, cs) ← fixed? 2 cs
  let cs ← mark? ':' cs
  let (second, cs) ← fixed? 2 cs
  if cs.isEmpty then of? hour minute second else none

theorem of?_eq_some_iff {hour minute second : Nat} {t : TimeOfDay} :
    of? hour minute second = some t ↔ t.hour = hour ∧ t.minute = minute ∧ t.second = second := by
  refine ⟨of?_eq_some, ?_⟩
  rintro ⟨rfl, rfl, rfl⟩
  exact of?_self t

theorem hour_lt (t : TimeOfDay) : t.hour < Nat.pow 10 2 := Nat.lt_trans t.valid.1 (by decide)

theorem minute_lt (t : TimeOfDay) : t.minute < Nat.pow 10 2 :=
  Nat.lt_trans t.valid.2.1 (by decide)

theorem second_lt (t : TimeOfDay) : t.second < Nat.pow 10 2 :=
  Nat.lt_trans t.valid.2.2 (by decide)

/-- The short form is read where it is written. -/
theorem readShort?_eq_some_iff {cs : List Char} {t : TimeOfDay} :
    readShort? cs = some t ↔ t.second = 0 ∧ cs = t.write := by
  simp only [readShort?, Option.bind_eq_bind, Option.bind_eq_some_iff, Prod.exists,
    fixed?_eq_some_iff, mark?_eq_some_iff]
  constructor
  · rintro ⟨_, _, ⟨_, rfl⟩, _, rfl, _, rest, ⟨_, rfl⟩, hrest⟩
    split at hrest
    · rename_i hnil
      obtain ⟨rfl, rfl, hsecond⟩ := of?_eq_some hrest
      rw [List.isEmpty_iff.mp hnil, List.append_nil]
      exact ⟨hsecond, rfl⟩
    · cases hrest
  · rintro ⟨hsecond, rfl⟩
    exact ⟨_, _, ⟨t.hour_lt, rfl⟩, _, rfl, _, [], ⟨t.minute_lt, (List.append_nil _).symm⟩,
      of?_eq_some_iff.mpr ⟨rfl, rfl, hsecond⟩⟩

/-- The long form is read where it is written. -/
theorem readLong?_eq_some_iff {cs : List Char} {t : TimeOfDay} :
    readLong? cs = some t ↔ cs = t.writeFull := by
  simp only [readLong?, Option.bind_eq_bind, Option.bind_eq_some_iff, Prod.exists,
    fixed?_eq_some_iff, mark?_eq_some_iff, writeFull_eq]
  constructor
  · rintro ⟨_, _, ⟨_, rfl⟩, _, rfl, _, _, ⟨_, rfl⟩, _, rfl, _, rest, ⟨_, rfl⟩, hrest⟩
    split at hrest
    · rename_i hnil
      obtain ⟨rfl, rfl, rfl⟩ := of?_eq_some hrest
      rw [List.isEmpty_iff.mp hnil, List.append_nil]
    · cases hrest
  · rintro rfl
    exact ⟨_, _, ⟨t.hour_lt, rfl⟩, _, rfl, _, _, ⟨t.minute_lt, rfl⟩, _, rfl, _, [],
      ⟨t.second_lt, (List.append_nil _).symm⟩, of?_self t⟩

/-- Each form is read where it is written, and nothing else is. -/
theorem readBare?_eq_some_iff {cs : List Char} {t : TimeOfDay} :
    readBare? cs = some t ↔ (t.second = 0 ∧ cs = t.write) ∨ cs = t.writeFull := by
  simp only [readBare?, Option.bind_eq_bind, Option.bind_eq_some_iff, Prod.exists,
    fixed?_eq_some_iff, mark?_eq_some_iff, writeFull_eq]
  constructor
  · rintro ⟨_, _, ⟨_, rfl⟩, _, rfl, _, rest, ⟨_, rfl⟩, hrest⟩
    cases rest with
    | nil =>
        obtain ⟨rfl, rfl, hsecond⟩ := of?_eq_some hrest
        rw [List.append_nil]
        exact .inl ⟨hsecond, rfl⟩
    | cons c rest =>
        simp only [Option.bind_eq_some_iff, Prod.exists, fixed?_eq_some_iff,
          mark?_eq_some_iff] at hrest
        obtain ⟨_, hmark, _, rest', ⟨_, rfl⟩, hrest⟩ := hrest
        rw [hmark]
        cases rest' with
        | nil =>
            obtain ⟨rfl, rfl, rfl⟩ := of?_eq_some hrest
            rw [List.append_nil]
            exact .inr rfl
        | cons c' rest' => cases hrest
  · rintro (⟨hsecond, rfl⟩ | rfl)
    · exact ⟨_, _, ⟨t.hour_lt, rfl⟩, _, rfl, _, [], ⟨t.minute_lt, (List.append_nil _).symm⟩,
        of?_eq_some_iff.mpr ⟨rfl, rfl, hsecond⟩⟩
    · refine ⟨_, _, ⟨t.hour_lt, rfl⟩, _, rfl, _, _, ⟨t.minute_lt, rfl⟩, ?_⟩
      simp only [Option.bind_eq_some_iff, Prod.exists, fixed?_eq_some_iff, mark?_eq_some_iff]
      exact ⟨_, rfl, _, [], ⟨t.second_lt, (List.append_nil _).symm⟩, of?_self t⟩

theorem length_write (t : TimeOfDay) : t.write.length = 5 := rfl

theorem length_writeFull (t : TimeOfDay) : t.writeFull.length = 8 := rfl

/-- No text has both forms. -/
theorem not_both_forms (cs : List Char) : readShort? cs = none ∨ readLong? cs = none := by
  cases hshort : readShort? cs with
  | none => exact .inl rfl
  | some s =>
      cases hlong : readLong? cs with
      | none => exact .inr rfl
      | some t =>
          have hs := congrArg List.length (readShort?_eq_some_iff.mp hshort).2
          have ht := congrArg List.length (readLong?_eq_some_iff.mp hlong)
          rw [length_write] at hs
          rw [length_writeFull] at ht
          omega

/-- The short form is tried first, and the long one where the text does not have the short one. -/
theorem readBare?_eq_or (cs : List Char) : readBare? cs = (readShort? cs).or (readLong? cs) := by
  ext t
  rw [readBare?_eq_some_iff, Option.or_eq_some_iff, ← readShort?_eq_some_iff,
    ← readLong?_eq_some_iff]
  rcases not_both_forms cs with hnone | hnone <;> simp [hnone]

/-! ## With white space around it -/

theorem isBlank_digitChar (n : Nat) : isBlank (digitChar (n % 10)) = false := by
  have all : ∀ d, d < 10 → isBlank (digitChar d) = false := by decide
  exact all _ (Nat.mod_lt n (by decide))

theorem trimmed_write (t : TimeOfDay) : Trimmed t.write := by
  refine ⟨?_, ?_⟩ <;> rintro c ⟨⟩ <;> exact isBlank_digitChar _

theorem trimmed_writeFull (t : TimeOfDay) : Trimmed t.writeFull := by
  refine ⟨?_, ?_⟩ <;> rintro c ⟨⟩ <;> exact isBlank_digitChar _

/-- A text that says some numbers has no white space at its ends, as long as they are those of a
time. -/
theorem Spells.trimmed {cs : List Char} {t : TimeOfDay}
    (h : Spells cs t.hour t.minute t.second) : Trimmed cs := by
  rcases (spells_iff cs t).mp h with ⟨_, rfl⟩ | rfl
  · exact trimmed_write t
  · exact trimmed_writeFull t

theorem read?_eq_some_iff {cs : List Char} {t : TimeOfDay} :
    read? cs = some t ↔
      ∃ core, BlanksAround core cs ∧ Spells core t.hour t.minute t.second := by
  rw [read?, readBare?_eq_some_iff, ← spells_iff]
  constructor
  · intro h
    exact ⟨trim cs, (trim_eq_iff.mp rfl).2, h⟩
  · rintro ⟨core, haround, h⟩
    rw [trim_eq_iff.mpr ⟨h.trimmed, haround⟩]
    exact h

/-- What is written for a time to the minute is read as the time with its second dropped. -/
theorem read?_write (t : TimeOfDay) : read? t.write = some t.toMinute := by
  have haround : BlanksAround t.write t.write :=
    ⟨[], [], by simp, by simp, by rw [List.nil_append, List.append_nil]⟩
  rw [read?, trim_eq_iff.mpr ⟨trimmed_write t, haround⟩, readBare?_write]

/-- Which texts are times of day.  A text is read as a time exactly if, but for white space around
it, it says the numbers of the time in two digits each, with colons between them; the second may
be left out, and is zero then.  So it is read at all exactly if it says numbers in this way that
are an hour, a minute and a second.  It is tried in one form and then in the other, and no text
has both.  What is written for a time, to the minute, is read as the time with its second
dropped. -/
theorem times_of_day_exact (cs : List Char) :
    (∀ t, read? cs = some t ↔
      ∃ core, BlanksAround core cs ∧ Spells core t.hour t.minute t.second) ∧
    ((read? cs).isSome = true ↔ ∃ core hour minute second, BlanksAround core cs ∧
      Spells core hour minute second ∧ hour ≤ 23 ∧ minute ≤ 59 ∧ second ≤ 59) ∧
    read? cs = (readShort? (trim cs)).or (readLong? (trim cs)) ∧
    (readShort? cs = none ∨ readLong? cs = none) ∧
    ∀ t : TimeOfDay, read? t.write = some t.toMinute := by
  refine ⟨fun t => read?_eq_some_iff, ?_, readBare?_eq_or _, not_both_forms cs, read?_write⟩
  rw [Option.isSome_iff_exists]
  constructor
  · rintro ⟨t, ht⟩
    obtain ⟨core, haround, hspells⟩ := read?_eq_some_iff.mp ht
    obtain ⟨hhour, hminute, hsecond⟩ := t.valid
    exact ⟨core, _, _, _, haround, hspells, by omega, by omega, by omega⟩
  · rintro ⟨core, hour, minute, second, haround, hspells, hhour, hminute, hsecond⟩
    exact ⟨⟨hour, minute, second, by omega⟩, read?_eq_some_iff.mpr ⟨core, haround, hspells⟩⟩

/-- White space of any kind may stand around a time, and the 60th second is none. -/
example :
    read? "\u00a007:05:30\n".toList = some ⟨7, 5, 30, by decide⟩ ∧
      read? "07:05:60".toList = none := by decide

end TimeOfDay

end AssetAccess
