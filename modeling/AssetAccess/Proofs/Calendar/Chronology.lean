import AssetAccess.Proofs.Calendar.RoundTrip
import AssetAccess.Proofs.Text.ByteOrder
set_option autoImplicit false

/-!
# The order of timestamps

A timestamp stands for an instant, which is counted here in nanoseconds from the start of
year 0 in UTC (`instant`).  The texts of two timestamps with one offset, written to the
millisecond, order as the instants to the millisecond do, and both as what the clock shows at
that offset (`orderChars_writeMillis`, `compare_instant_toMillis`).

Both orders are that of the calendar fields, the year first and the millisecond last.  On the
side of the texts this is so because every field has a fixed width.  On the side of the
instants the days of a month, the months of a year and the seconds of a day are places in
consecutive blocks of numbers, and numbers order by their block first (`orderNat_blocks`).
-/

namespace AssetAccess

open Text

/-! ## Blocks of numbers -/

/-- Blocks of numbers that follow each other without a gap. -/
def Consecutive (start size : Nat → Nat) : Prop := ∀ n, start n + size n = start (n + 1)

namespace Consecutive

variable {start size : Nat → Nat}

/-- The blocks of one size. -/
theorem const (base : Nat) : Consecutive (· * base) fun _ => base :=
  fun n => (Nat.succ_mul n base).symm

/-- A block ends before every later one starts. -/
theorem add_size_le (h : Consecutive start size) {p q : Nat} (hpq : p < q) :
    start p + size p ≤ start q := by
  induction q with
  | zero => exact absurd hpq (Nat.not_lt_zero p)
  | succ q ih =>
      rcases Nat.lt_succ_iff_lt_or_eq.mp hpq with hlt | rfl
      · have hbefore := ih hlt
        have hnext := h q
        omega
      · exact Nat.le_of_eq (h p)

/-- Numbers that are places in consecutive blocks order by their blocks, and within one block
by their places. -/
theorem orderNat_add (h : Consecutive start size) {p q a b : Nat} (ha : a < size p)
    (hb : b < size q) :
    orderNat (start p + a) (start q + b) = (orderNat p q).then (orderNat a b) := by
  rcases Nat.lt_trichotomy p q with hlt | rfl | hgt
  · have hblock := h.add_size_le hlt
    rw [(orderNat_lt_iff p q).mpr hlt, (orderNat_lt_iff _ _).mpr (by omega)]
    rfl
  · have hself : orderNat p p = .eq := (orderNat_eq_iff p p).mpr rfl
    rw [hself, Nat.add_comm, Nat.add_comm (start p), orderNat_add_right]
    rfl
  · have hblock := h.add_size_le hgt
    rw [(orderNat_gt_iff p q).mpr hgt, (orderNat_gt_iff _ _).mpr (by omega)]
    rfl

end Consecutive

/-! ## Days -/

namespace Date

/-- The order of two dates: by year, then by month, then by day. -/
def order (d e : Date) : Ordering :=
  (orderNat d.year e.year).then ((orderNat d.month e.month).then (orderNat d.day e.day))

/-- The days of a year. -/
def daysInYear (year : Nat) : Nat := if isLeapYear year then 366 else 365

/-- The day of the year, counted from zero. -/
def dayOfYear (d : Date) : Nat := daysBeforeMonth d.year d.month + (d.day - 1)

/-- The leap years before the next year count this one, if it is one. -/
theorem leapYearsBefore_succ (year : Nat) :
    leapYearsBefore (year + 1) = leapYearsBefore year + if isLeapYear year then 1 else 0 := by
  have hfourth : (year + 1 + 3) / 4 = (year + 3) / 4 + if year % 4 = 0 then 1 else 0 := by
    split <;> omega
  have hcentury : (year + 1 + 99) / 100 = (year + 99) / 100 + if year % 100 = 0 then 1 else 0 := by
    split <;> omega
  have hgreat : (year + 1 + 399) / 400 = (year + 399) / 400 + if year % 400 = 0 then 1 else 0 := by
    split <;> omega
  have hfewer : (year + 99) / 100 ≤ (year + 3) / 4 := by omega
  have hof4 : year % 100 = 0 → year % 4 = 0 := by omega
  have hof100 : year % 400 = 0 → year % 100 = 0 := by omega
  simp only [leapYearsBefore, isLeapYear, hfourth, hcentury, hgreat, Bool.and_eq_true,
    Bool.or_eq_true, beq_iff_eq, bne_iff_ne]
  -- The quotients are only counted on from here, so they need not be divisions any more.
  generalize (year + 3) / 4 = fourths at hfewer ⊢
  generalize (year + 99) / 100 = centuries at hfewer ⊢
  by_cases h4 : year % 4 = 0
  · by_cases h100 : year % 100 = 0
    · by_cases h400 : year % 400 = 0
      · simp [h4, h100, h400]
        omega
      · simp [h4, h100, h400]
    · have h400 : ¬ year % 400 = 0 := mt hof100 h100
      simp [h4, h100, h400]
      omega
  · have h100 : ¬ year % 100 = 0 := mt hof4 h4
    have h400 : ¬ year % 400 = 0 := mt hof100 h100
    simp [h4, h100, h400]

/-- Years follow each other without a gap. -/
theorem consecutive_years :
    Consecutive (fun year => 365 * year + leapYearsBefore year) daysInYear := by
  intro year
  simp only [leapYearsBefore_succ, daysInYear]
  split <;> omega

/-- The months of a year, counted from zero, follow each other without a gap. -/
theorem consecutive_months (year : Nat) :
    Consecutive (fun m => daysBeforeMonth year (m + 1)) fun m => daysInMonth year (m + 1) := by
  intro m
  change ((List.range m).map fun m => daysInMonth year (m + 1)).sum + daysInMonth year (m + 1) =
    ((List.range (m + 1)).map fun m => daysInMonth year (m + 1)).sum
  rw [List.range_succ, List.map_append, List.sum_append, List.map_singleton, List.sum_singleton]

/-- Twelve months make a year. -/
theorem daysBeforeMonth_twelve (year : Nat) :
    daysBeforeMonth year (12 + 1) = daysInYear year := by
  have hrange : List.range 12 = [0, 1, 2, 3, 4, 5, 6, 7, 8, 9, 10, 11] := rfl
  simp only [daysBeforeMonth, daysInMonth, daysInYear, Nat.add_sub_cancel, hrange]
  cases isLeapYear year <;> rfl

/-- The number of a month, counted from zero and back from one. -/
theorem month_pred_add_one (d : Date) : d.month - 1 + 1 = d.month :=
  Nat.sub_add_cancel d.valid.2.1

theorem day_pred_add_one (d : Date) : d.day - 1 + 1 = d.day :=
  Nat.sub_add_cancel d.valid.2.2.2.1

theorem day_pred_lt (d : Date) : d.day - 1 < daysInMonth d.year (d.month - 1 + 1) := by
  have hday := d.day_pred_add_one
  have hlength := d.valid.2.2.2.2
  rw [month_pred_add_one]
  omega

theorem dayOfYear_lt (d : Date) : d.dayOfYear < daysInYear d.year := by
  have hlast : d.month - 1 < 12 := by
    have hmonth := d.month_pred_add_one
    have htwelve := d.valid.2.2.1
    omega
  have hblock := (consecutive_months d.year).add_size_le hlast
  have hday := d.day_pred_lt
  rw [daysBeforeMonth_twelve] at hblock
  rw [month_pred_add_one] at hblock hday
  rw [dayOfYear]
  omega

/-- The days of one year order by month and day. -/
theorem orderNat_dayOfYear {d e : Date} (h : d.year = e.year) :
    orderNat d.dayOfYear e.dayOfYear =
      (orderNat d.month e.month).then (orderNat d.day e.day) := by
  have hd := d.day_pred_lt
  have he := e.day_pred_lt
  rw [← h] at he
  have hblocks := (consecutive_months d.year).orderNat_add hd he
  rw [month_pred_add_one, month_pred_add_one] at hblocks
  rw [dayOfYear, dayOfYear, ← h, hblocks, ← orderNat_add_right (d.month - 1) (e.month - 1) 1,
    ← orderNat_add_right (d.day - 1) (e.day - 1) 1, month_pred_add_one, month_pred_add_one,
    day_pred_add_one, day_pred_add_one]

theorem dayNumber_eq (d : Date) :
    d.dayNumber = 365 * d.year + leapYearsBefore d.year + d.dayOfYear := by
  rw [dayNumber, dayOfYear, Nat.add_assoc]

/-- Days are counted in the order of their dates. -/
theorem orderNat_dayNumber (d e : Date) : orderNat d.dayNumber e.dayNumber = d.order e := by
  rw [dayNumber_eq, dayNumber_eq, order,
    consecutive_years.orderNat_add d.dayOfYear_lt e.dayOfYear_lt]
  cases hyear : orderNat d.year e.year with
  | lt => rfl
  | gt => rfl
  | eq => exact orderNat_dayOfYear ((orderNat_eq_iff _ _).mp hyear)

end Date

/-! ## Fields of a fixed width -/

theorem orderChars_cons_self (c : Char) (x y : List Char) :
    orderChars (c :: x) (c :: y) = orderChars x y := by
  have hself : orderNat c.toNat c.toNat = .eq := (orderNat_eq_iff _ _).mpr rfl
  rw [orderChars, hself]
  rfl

theorem toNat_digitChar {d : Nat} (h : d < 10) : (digitChar d).toNat = d + 48 := by
  have all : ∀ d, d < 10 → (digitChar d).toNat = d + 48 := by decide
  exact all d h

/-- Padded numbers order as the numbers do, and then what follows them. -/
theorem orderChars_padded {width m n : Nat} (hm : m < Nat.pow 10 width)
    (hn : n < Nat.pow 10 width) (x y : List Char) :
    orderChars (padded width m ++ x) (padded width n ++ y) =
      (orderNat m n).then (orderChars x y) := by
  induction width generalizing m n x y with
  | zero =>
      have hm' : m = 0 := Nat.lt_one_iff.mp hm
      have hn' : n = 0 := Nat.lt_one_iff.mp hn
      rw [hm', hn']
      rfl
  | succ width ih =>
      -- All digits but the last are those of the quotients, and the last decides between equals.
      have hpow : Nat.pow 10 (width + 1) = Nat.pow 10 width * 10 := rfl
      rw [hpow, ← Nat.div_lt_iff_lt_mul (by decide)] at hm hn
      rw [padded, padded, List.append_assoc, List.append_assoc, ih hm hn, List.cons_append,
        List.cons_append, orderChars, toNat_digitChar (Nat.mod_lt m (by decide)),
        toNat_digitChar (Nat.mod_lt n (by decide)), orderNat_add_right, ← Ordering.then_assoc,
        orderNat_div_then_mod]
      rfl

/-- Written dates order as the dates do. -/
theorem orderChars_writeDate (d e : Date) (x y : List Char) :
    orderChars (Timestamp.writeDate d ++ x) (Timestamp.writeDate e ++ y) =
      (d.order e).then (orderChars x y) := by
  have hyear (d : Date) : d.year < Nat.pow 10 4 := Nat.lt_of_le_of_lt d.valid.1 (by decide)
  have hmonth (d : Date) : d.month < Nat.pow 10 2 :=
    Nat.lt_of_le_of_lt d.valid.2.2.1 (by decide)
  have hday (d : Date) : d.day < Nat.pow 10 2 := Nat.lt_trans d.day_lt (by decide)
  simp only [Timestamp.writeDate, List.append_assoc, List.cons_append]
  rw [orderChars_padded (hyear d) (hyear e), orderChars_cons_self,
    orderChars_padded (hmonth d) (hmonth e), orderChars_cons_self,
    orderChars_padded (hday d) (hday e), Date.order, Ordering.then_assoc, Ordering.then_assoc]

namespace TimeOfDay

/-- Times order by hour, minute and second. -/
theorem order_eq (s t : TimeOfDay) :
    s.order t =
      (orderNat s.hour t.hour).then
        ((orderNat s.minute t.minute).then (orderNat s.second t.second)) := by
  obtain ⟨_, hsminute, hssecond⟩ := s.valid
  obtain ⟨_, htminute, htsecond⟩ := t.valid
  rw [order, seconds, seconds, (Consecutive.const 60).orderNat_add hssecond htsecond,
    (Consecutive.const 60).orderNat_add hsminute htminute, Ordering.then_assoc]

theorem seconds_lt (t : TimeOfDay) : t.seconds < 86400 := by
  obtain ⟨hhour, hminute, hsecond⟩ := t.valid
  rw [seconds]
  omega

/-- Written times order as the times do. -/
theorem orderChars_writeFull (s t : TimeOfDay) (x y : List Char) :
    orderChars (s.writeFull ++ x) (t.writeFull ++ y) = (s.order t).then (orderChars x y) := by
  have hhour (t : TimeOfDay) : t.hour < Nat.pow 10 2 := Nat.lt_trans t.valid.1 (by decide)
  have hminute (t : TimeOfDay) : t.minute < Nat.pow 10 2 := Nat.lt_trans t.valid.2.1 (by decide)
  have hsecond (t : TimeOfDay) : t.second < Nat.pow 10 2 := Nat.lt_trans t.valid.2.2 (by decide)
  simp only [writeFull, write, List.append_assoc, List.cons_append]
  rw [orderChars_padded (hhour s) (hhour t), orderChars_cons_self,
    orderChars_padded (hminute s) (hminute t), orderChars_cons_self,
    orderChars_padded (hsecond s) (hsecond t), order_eq, Ordering.then_assoc, Ordering.then_assoc]

end TimeOfDay

/-! ## Instants -/

namespace Timestamp

/-- The instant, in nanoseconds from the start of year 0 in UTC. -/
def instant (t : Timestamp) : Int :=
  (((t.date.dayNumber * 86400 + t.time.seconds : Nat) : Int) - t.offset.minutes * 60) *
    1000000000 + (t.nanosecond : Int)

/-- The whole milliseconds of the fraction. -/
def millis (t : Timestamp) : Nat := t.nanosecond / 1000000

/-- The milliseconds from the start of year 0 at the offset. -/
def wallMillis (t : Timestamp) : Nat :=
  (t.date.dayNumber * 86400 + t.time.seconds) * 1000 + t.millis

theorem millis_lt (t : Timestamp) : t.millis < 1000 := by
  have h := t.nanosecond_lt
  rw [millis]
  omega

/-- To drop what is below the millisecond is to round the instant down. -/
theorem instant_toMillis (t : Timestamp) :
    t.toMillis.instant = t.instant / 1000000 * 1000000 := by
  simp only [instant, toMillis]
  omega

/-- The instant to the millisecond, counted at the offset. -/
theorem instant_toMillis_eq_wallMillis (t : Timestamp) :
    t.toMillis.instant = (t.wallMillis : Int) * 1000000 - t.offset.minutes * 60000000000 := by
  simp only [instant, toMillis, wallMillis, millis]
  omega

/-- What the clock shows to the millisecond orders by date, time and millisecond. -/
theorem orderNat_wallMillis (s t : Timestamp) :
    orderNat s.wallMillis t.wallMillis =
      (s.date.order t.date).then ((s.time.order t.time).then (orderNat s.millis t.millis)) := by
  rw [wallMillis, wallMillis, (Consecutive.const 1000).orderNat_add s.millis_lt t.millis_lt,
    (Consecutive.const 86400).orderNat_add s.time.seconds_lt t.time.seconds_lt,
    Date.orderNat_dayNumber, Ordering.then_assoc]
  rfl

/-- At one offset the instants to the millisecond order as what the clock shows. -/
theorem compare_instant_toMillis {s t : Timestamp} (h : s.offset = t.offset) :
    compare s.toMillis.instant t.toMillis.instant = orderNat s.wallMillis t.wallMillis := by
  rw [instant_toMillis_eq_wallMillis, instant_toMillis_eq_wallMillis, h]
  generalize t.offset.minutes * 60000000000 = offset
  change compareOfLessAndEq _ _ = _
  rcases Nat.lt_trichotomy s.wallMillis t.wallMillis with hlt | heq | hgt
  · rw [(orderNat_lt_iff _ _).mpr hlt, compareOfLessAndEq, if_pos (by omega)]
  · rw [(orderNat_eq_iff _ _).mpr heq, compareOfLessAndEq, if_neg (by omega), if_pos (by omega)]
  · rw [(orderNat_gt_iff _ _).mpr hgt, compareOfLessAndEq, if_neg (by omega), if_neg (by omega)]

/-- The texts of two timestamps to the millisecond, with one offset, order as what the clock
shows. -/
theorem orderChars_writeMillis {s t : Timestamp} (h : s.offset = t.offset) :
    orderChars s.writeMillis t.writeMillis = orderNat s.wallMillis t.wallMillis := by
  have hoffset : orderChars t.offset.write t.offset.write = .eq :=
    (orderChars_eq_iff _ _).mpr rfl
  have hmillis (t : Timestamp) : t.millis < Nat.pow 10 3 := t.millis_lt
  simp only [writeMillis, writeSecond, List.append_assoc, List.cons_append]
  rw [orderChars_writeDate, orderChars_cons_self, TimeOfDay.orderChars_writeFull,
    orderChars_cons_self, ← millis, ← millis, orderChars_padded (hmillis s) (hmillis t), h, hoffset,
    Ordering.then_eq, orderNat_wallMillis]

end Timestamp

end AssetAccess
