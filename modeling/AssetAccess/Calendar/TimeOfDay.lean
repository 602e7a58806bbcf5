import AssetAccess.Text.Blank
import AssetAccess.Text.Digits
import AssetAccess.Text.Order
set_option autoImplicit false

/-!
# Times of day

A time of day to the second, its two written forms `HH:MM` and `HH:MM:SS`, and the
order of times within a day.
-/

namespace AssetAccess

open Text

/-- A time within a day. -/
structure TimeOfDay where
  hour : Nat
  minute : Nat
  second : Nat
  valid : hour < 24 ∧ minute < 60 ∧ second < 60
  deriving DecidableEq

namespace TimeOfDay

/-- The time with these numbers, if there is one. -/
def of? (hour minute second : Nat) : Option TimeOfDay :=
  if h : hour < 24 ∧ minute < 60 ∧ second < 60 then some ⟨hour, minute, second, h⟩ else none

instance : Inhabited TimeOfDay := ⟨⟨0, 0, 0, by decide⟩⟩

theorem of?_self (t : TimeOfDay) : of? t.hour t.minute t.second = some t := by
  simp only [of?, dif_pos t.valid]

theorem of?_eq_some {hour minute second : Nat} {t : TimeOfDay}
    (h : of? hour minute second = some t) :
    t.hour = hour ∧ t.minute = minute ∧ t.second = second := by
  unfold of? at h
  split at h
  · cases h; exact ⟨rfl, rfl, rfl⟩
  · cases h

/-- The time with its second dropped. -/
def toMinute (t : TimeOfDay) : TimeOfDay :=
  ⟨t.hour, t.minute, 0, t.valid.1, t.valid.2.1, by decide⟩

/-- Seconds since midnight. -/
def seconds (t : TimeOfDay) : Nat := (t.hour * 60 + t.minute) * 60 + t.second

/-- A time is determined by its seconds since midnight. -/
theorem seconds_inj {s t : TimeOfDay} : s.seconds = t.seconds ↔ s = t := by
  constructor
  · intro h
    obtain ⟨a, b, c, ha, hb, hc⟩ := s
    obtain ⟨a', b', c', ha', hb', hc'⟩ := t
    simp only [seconds] at h
    simp only [mk.injEq]
    omega
  · rintro rfl; rfl

/-- The order within a day. -/
def order (s t : TimeOfDay) : Ordering := orderNat s.seconds t.seconds

/-- `HH:MM`. -/
def write (t : TimeOfDay) : List Char := padded 2 t.hour ++ ':' :: padded 2 t.minute

/-- `HH:MM:SS`. -/
def writeFull (t : TimeOfDay) : List Char := t.write ++ ':' :: padded 2 t.second

/-- Two digits, a colon and two digits, then optionally a colon and two digits, and nothing else. -/
def readBare? (cs : List Char) : Option TimeOfDay := do
  let (hour, cs) ← fixed? 2 cs
  let cs ← mark? ':' cs
  let (minute, cs) ← fixed? 2 cs
  match cs with
  | [] => of? hour minute 0
  | c :: cs =>
    let cs ← mark? ':' (c :: cs)
    let (second, cs) ← fixed? 2 cs
    match cs with
    | [] => of? hour minute second
    | _ :: _ => none

/-- A time of day with white space around it dropped. -/
def read? (cs : List Char) : Option TimeOfDay := readBare? (trim cs)

theorem readBare?_write (t : TimeOfDay) : readBare? t.write = some t.toMinute := by
  have h := t.valid
  simp only [readBare?, write, fixed?_padded_two t.hour _ (by omega), Option.bind_eq_bind,
    Option.bind_some, mark?, if_true]
  rw [← List.append_nil (padded 2 t.minute), fixed?_padded_two t.minute _ (by omega)]
  exact of?_self t.toMinute

end TimeOfDay

end AssetAccess
