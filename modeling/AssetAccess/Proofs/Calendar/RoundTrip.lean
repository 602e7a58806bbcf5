import AssetAccess.Calendar.Timestamp
set_option autoImplicit false

/-!
# Timestamps read back

The text that is written for a timestamp is read as the same timestamp (`read?_write`).  The
one part whose text does not have a fixed width is the fraction: trailing zeros are dropped
when it is written, and make no difference when it is read.  The form with three fraction
digits is read as the timestamp to the millisecond (`read?_writeMillis`).
-/

namespace AssetAccess.Timestamp

open Text

/-! ## Fractions -/

/-- No digit stands at the front of a text. -/
def NoDigitAhead (cs : List Char) : Prop := ∀ c rest, cs = c :: rest → digit? c = none

theorem readFraction_of_noDigitAhead {cs : List Char} (h : NoDigitAhead cs) (unit sum : Nat) :
    readFraction unit sum cs = (sum, cs) := by
  cases cs with
  | nil => rfl
  | cons c rest => rw [readFraction, h c rest rfl]

theorem isDigit_digitChar {d : Nat} (h : d < 10) : (digitChar d).isDigit = true := by
  have all : ∀ d, d < 10 → (digitChar d).isDigit = true := by decide
  exact all d h

theorem isDigit_of_mem_padded {width n : Nat} {c : Char} (h : c ∈ padded width n) :
    c.isDigit = true := by
  induction width generalizing n with
  | zero => cases h
  | succ width ih =>
      rw [padded, List.mem_append, List.mem_singleton] at h
      rcases h with h | rfl
      · exact ih h
      · exact isDigit_digitChar (Nat.mod_lt n (by omega))

/-- Behind some digits the fraction goes on with the unit of the next digit. -/
theorem readFraction_append {ds : List Char} (h : ∀ c ∈ ds, c.isDigit = true) (unit sum : Nat)
    (cs : List Char) :
    readFraction unit sum (ds ++ cs) =
      readFraction (unit / Nat.pow 10 ds.length) (readFraction unit sum ds).1 cs := by
  induction ds generalizing unit sum with
  | nil =>
      have hunit : unit / Nat.pow 10 0 = unit := Nat.div_one unit
      rw [List.nil_append, List.length_nil, readFraction, hunit]
  | cons d ds ih =>
      have hd : digit? d = some (d.toNat - 48) := if_pos (h d List.mem_cons_self)
      have hunit : unit / 10 / Nat.pow 10 ds.length = unit / Nat.pow 10 (ds.length + 1) := by
        rw [Nat.div_div_eq_div_mul, Nat.mul_comm]
        rfl
      rw [List.cons_append, readFraction, hd, readFraction, hd, List.length_cons, ← hunit]
      exact ih (fun c hc => h c (List.mem_cons_of_mem d hc)) ..

/-- A padded fraction is read as the number it was written for, in units of its last digit. -/
theorem readFraction_padded (width n unit last sum : Nat) (hn : n < Nat.pow 10 width)
    (hunit : unit * 10 = last * Nat.pow 10 width) :
    (readFraction unit sum (padded width n)).1 = sum + n * last := by
  induction width generalizing n last with
  | zero =>
      have hzero : n = 0 := Nat.lt_one_iff.mp hn
      rw [hzero, Nat.zero_mul]
      rfl
  | succ width ih =>
      have hpow : Nat.pow 10 (width + 1) = Nat.pow 10 width * 10 := rfl
      have hpositive : 0 < Nat.pow 10 width := Nat.pow_pos (by decide)
      rw [hpow] at hn hunit
      have hquotient : n / 10 < Nat.pow 10 width := by
        rw [Nat.div_lt_iff_lt_mul (by decide)]
        exact hn
      have hlast : unit / Nat.pow 10 (padded width (n / 10)).length = last := by
        rw [← Nat.mul_assoc] at hunit
        rw [length_padded, Nat.eq_of_mul_eq_mul_right (by decide) hunit]
        exact Nat.mul_div_cancel last hpositive
      have hbefore : (readFraction unit sum (padded width (n / 10))).1 =
          sum + n / 10 * (last * 10) := by
        apply ih (n / 10) (last * 10) hquotient
        rw [hunit, Nat.mul_assoc, Nat.mul_comm 10]
      have hsplit : n / 10 * (last * 10) + n % 10 * last = n * last := by
        rw [Nat.mul_comm last, ← Nat.mul_assoc, ← Nat.add_mul, Nat.mul_comm _ 10,
          Nat.div_add_mod]
      rw [padded, readFraction_append (fun c hc => isDigit_of_mem_padded hc), hlast, hbefore,
        readFraction, digit?_digitChar (Nat.mod_lt n (by decide))]
      simp only [readFraction]
      rw [Nat.add_assoc, hsplit]

/-- Zeros add nothing to a fraction. -/
theorem readFraction_zeros {zeros : List Char} (h : ∀ c ∈ zeros, c = '0') (unit sum : Nat) :
    (readFraction unit sum zeros).1 = sum := by
  induction zeros generalizing unit with
  | nil => rfl
  | cons c rest ih =>
      have hzero : digit? '0' = some 0 := rfl
      rw [h c List.mem_cons_self, readFraction, hzero]
      simp only [Nat.zero_mul, Nat.add_zero]
      exact ih (fun d hd => h d (List.mem_cons_of_mem c hd)) (unit / 10)

/-- The digits of a fraction that are written. -/
def kept (nanosecond : Nat) : List Char :=
  ((padded 9 nanosecond).reverse.dropWhile (· == '0')).reverse

/-- What is not written of a fraction are zeros at its end. -/
theorem exists_zeros (nanosecond : Nat) :
    ∃ zeros, padded 9 nanosecond = kept nanosecond ++ zeros ∧ ∀ c ∈ zeros, c = '0' := by
  refine ⟨((padded 9 nanosecond).reverse.takeWhile (· == '0')).reverse, ?_, ?_⟩
  · rw [kept, ← List.reverse_append, List.takeWhile_append_dropWhile, List.reverse_reverse]
  · intro c hc
    rw [List.mem_reverse] at hc
    exact eq_of_beq (List.all_eq_true.mp (List.all_takeWhile ..) c hc)

theorem isDigit_of_mem_kept {nanosecond : Nat} {c : Char} (h : c ∈ kept nanosecond) :
    c.isDigit = true := by
  obtain ⟨zeros, hzeros, _⟩ := exists_zeros nanosecond
  have hmem : c ∈ padded 9 nanosecond := by
    rw [hzeros]
    exact List.mem_append_left zeros h
  exact isDigit_of_mem_padded hmem

/-- The digits that are written say all of the fraction. -/
theorem readFraction_kept {nanosecond : Nat} (h : nanosecond < 1000000000) {cs : List Char}
    (hcs : NoDigitAhead cs) :
    readFraction 100000000 0 (kept nanosecond ++ cs) = (nanosecond, cs) := by
  obtain ⟨zeros, hzeros, hzero⟩ := exists_zeros nanosecond
  have hfull := readFraction_padded 9 nanosecond 100000000 1 0 h rfl
  rw [hzeros, readFraction_append (fun c hc => isDigit_of_mem_kept hc),
    readFraction_zeros hzero, Nat.zero_add, Nat.mul_one] at hfull
  rw [readFraction_append (fun c hc => isDigit_of_mem_kept hc),
    readFraction_of_noDigitAhead hcs, hfull]

theorem kept_ne_nil {nanosecond : Nat} (h : nanosecond < 1000000000) (hne : nanosecond ≠ 0) :
    kept nanosecond ≠ [] := by
  intro hnil
  have hnone : NoDigitAhead [] := by
    intro c rest hc
    cases hc
  have hread := readFraction_kept h hnone
  rw [hnil] at hread
  cases hread
  exact hne rfl

/-- A fraction is read as it was written, in front of what is neither a digit nor a point. -/
theorem readFraction?_writeFraction {nanosecond : Nat} (h : nanosecond < 1000000000)
    {cs : List Char} (hcs : NoDigitAhead cs) (hpoint : ∀ rest, cs ≠ '.' :: rest) :
    readFraction? (writeFraction nanosecond ++ cs) = some (nanosecond, cs) := by
  rw [writeFraction]
  split
  · rename_i hzero
    rw [List.nil_append, readFraction?.eq_def]
    split
    · exact absurd rfl (hpoint _)
    · exact absurd rfl (hpoint _)
    · rw [hzero]
  · rename_i hne
    change readFraction? ('.' :: (kept nanosecond ++ cs)) = _
    have hread := readFraction_kept h hcs
    cases hkept : kept nanosecond with
    | nil => exact absurd hkept (kept_ne_nil h hne)
    | cons c rest =>
        have hdigit : c.isDigit = true := isDigit_of_mem_kept (by rw [hkept]; exact .head rest)
        rw [hkept] at hread
        rw [List.cons_append, readFraction?, if_pos hdigit, ← List.cons_append, hread]

/-! ## The whole text -/

/-- An offset begins with a letter or a sign. -/
theorem write_offset_cases (o : Offset) :
    ∃ c rest, o.write = c :: rest ∧ (c = 'Z' ∨ c = '-' ∨ c = '+') := by
  rw [Offset.write]
  split
  · exact ⟨'Z', [], rfl, .inl rfl⟩
  · split
    · exact ⟨'-', _, rfl, .inr (.inl rfl)⟩
    · exact ⟨'+', _, rfl, .inr (.inr rfl)⟩

theorem noDigitAhead_offset (o : Offset) : NoDigitAhead o.write := by
  obtain ⟨c, rest, hwrite, hc⟩ := write_offset_cases o
  intro c' rest' h
  rw [hwrite] at h
  cases h
  rcases hc with rfl | rfl | rfl <;> rfl

theorem offset_ne_point (o : Offset) (rest : List Char) : o.write ≠ '.' :: rest := by
  obtain ⟨c, rest', hwrite, hc⟩ := write_offset_cases o
  intro h
  rw [hwrite] at h
  cases h
  rcases hc with h | h | h <;> cases h

theorem mark?_self (m : Char) (cs : List Char) : mark? m (m :: cs) = some cs := if_pos rfl

theorem readDate?_writeDate (d : Date) (cs : List Char) :
    readDate? (writeDate d ++ cs) = some (d, cs) := by
  obtain ⟨hyear, _, hmonth, _, _⟩ := d.valid
  have hy := fixed?_padded 4 d.year ('-' :: (padded 2 d.month ++ '-' :: (padded 2 d.day ++ cs)))
    (Nat.lt_of_le_of_lt hyear (by decide))
  have hm := fixed?_padded_two d.month ('-' :: (padded 2 d.day ++ cs)) (by omega)
  have hd := fixed?_padded_two d.day cs (Nat.lt_trans d.day_lt (by decide))
  rw [writeDate, List.append_assoc, List.cons_append, List.append_assoc, List.cons_append,
    readDate?]
  simp only [hy, hm, hd, mark?_self, Option.bind_eq_bind, Option.bind_some, Date.of?_self]

/-- Everything up to the second is read back, and the offset too, whatever stands for the
fraction between them. -/
theorem read?_writeSecond (t : Timestamp) {fraction : List Char} {nanosecond : Nat}
    (hbound : nanosecond < 1000000000)
    (hfraction : readFraction? (fraction ++ t.offset.write) = some (nanosecond, t.offset.write)) :
    read? (t.writeSecond ++ (fraction ++ t.offset.write)) =
      some ⟨t.date, t.time, nanosecond, t.offset, hbound⟩ := by
  obtain ⟨hhour, hminute, hsecond⟩ := t.time.valid
  have hs := fixed?_padded_two t.time.second (fraction ++ t.offset.write) (by omega)
  have hm := fixed?_padded_two t.time.minute
    (':' :: (padded 2 t.time.second ++ (fraction ++ t.offset.write))) (by omega)
  have hh := fixed?_padded_two t.time.hour
    (':' :: (padded 2 t.time.minute ++
      ':' :: (padded 2 t.time.second ++ (fraction ++ t.offset.write)))) (by omega)
  have htext : t.writeSecond ++ (fraction ++ t.offset.write) =
      writeDate t.date ++ 'T' :: (padded 2 t.time.hour ++ ':' :: (padded 2 t.time.minute ++
        ':' :: (padded 2 t.time.second ++ (fraction ++ t.offset.write)))) := by
    simp only [writeSecond, TimeOfDay.writeFull, TimeOfDay.write, List.append_assoc,
      List.cons_append]
  have hseparator (cs : List Char) : dropSeparator? ('T' :: cs) = some cs := by
    rw [dropSeparator?, if_pos (by decide)]
  have hnoLeap : ¬ t.time.second = 60 := by omega
  rw [htext, read?]
  simp only [readDate?_writeDate, hseparator, hh, hm, hs, mark?_self, hfraction,
    Offset.read?_write, Option.bind_eq_bind, Option.bind_some, if_neg hnoLeap,
    TimeOfDay.of?_self, dif_pos hbound]

/-- What is written for a timestamp is read as this timestamp. -/
theorem read?_write (t : Timestamp) : read? t.write = some t := by
  rw [write, List.append_assoc]
  exact read?_writeSecond t t.nanosecond_lt
    (readFraction?_writeFraction t.nanosecond_lt (noDigitAhead_offset t.offset)
      (offset_ne_point t.offset))

/-! ## To the millisecond -/

/-- The timestamp with what is below the millisecond dropped. -/
def toMillis (t : Timestamp) : Timestamp :=
  ⟨t.date, t.time, t.nanosecond / 1000000 * 1000000, t.offset, by
    have h := t.nanosecond_lt
    omega⟩

/-- Three fraction digits are read as milliseconds. -/
theorem readFraction?_padded_three {millis : Nat} (h : millis < 1000) {cs : List Char}
    (hcs : NoDigitAhead cs) :
    readFraction? ('.' :: padded 3 millis ++ cs) = some (millis * 1000000, cs) := by
  have hread : readFraction 100000000 0 (padded 3 millis ++ cs) = (millis * 1000000, cs) := by
    rw [readFraction_append (fun c hc => isDigit_of_mem_padded hc),
      readFraction_padded 3 millis 100000000 1000000 0 h rfl, Nat.zero_add,
      readFraction_of_noDigitAhead hcs]
  cases hpadded : padded 3 millis with
  | nil => cases (length_padded 3 millis).symm.trans (congrArg List.length hpadded)
  | cons c rest =>
      have hmem : c ∈ padded 3 millis := by
        rw [hpadded]
        exact .head rest
      rw [hpadded] at hread
      rw [List.cons_append, List.cons_append, readFraction?,
        if_pos (isDigit_of_mem_padded hmem), ← List.cons_append, hread]

/-- What is written of a timestamp to the millisecond is read as the timestamp to the
millisecond. -/
theorem read?_writeMillis (t : Timestamp) : read? t.writeMillis = some t.toMillis := by
  have hmillis : t.nanosecond / 1000000 < 1000 := by
    have h := t.nanosecond_lt
    omega
  rw [writeMillis, List.append_assoc]
  exact read?_writeSecond t t.toMillis.nanosecond_lt
    (readFraction?_padded_three hmillis (noDigitAhead_offset t.offset))

end AssetAccess.Timestamp
