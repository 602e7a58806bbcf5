import AssetAccess.Formula.Literal
import Mathlib.Data.Rat.Floor
import Mathlib.Tactic.Linarith
set_option autoImplicit false

/-!
# Numbers as hexadecimal texts

A finite number is `± significand * 2 ^ exponent`, exactly (`FiniteNumber.toRat`).  Under the cast
to a hexadecimal text its fraction is dropped, toward zero, and the integer that is left is held
in 64 bits with a sign before its digits are written.

So the digits are those of the integer part as long as 64 bits hold it.  Of the integers beyond
them only the end of the range is left that they lie behind (`FiniteNumber.clampedPart_eq_iff`),
and numbers behind one end share a text.  No other two numbers do, since the upper end of the
range, which has 63 bits, is not itself the integer part of a number (`hex_casts_exact_iff`).
-/

namespace AssetAccess

/-! ## The value of a number -/

/-- The integer part of a quotient: the fraction is dropped, toward zero. -/
def truncate (q : ℚ) : ℤ := if q < 0 then ⌈q⌉ else ⌊q⌋

theorem truncate_of_nonneg {q : ℚ} (h : 0 ≤ q) : truncate q = ⌊q⌋ := if_neg (not_lt.mpr h)

theorem truncate_neg (q : ℚ) : truncate (-q) = -truncate q := by
  rcases lt_trichotomy q 0 with hneg | rfl | hpos
  · rw [truncate_of_nonneg (neg_nonneg.mpr hneg.le), truncate, if_pos hneg, Int.floor_neg]
  · rfl
  · rw [truncate_of_nonneg hpos.le, truncate, if_pos (neg_neg_of_pos hpos), Int.ceil_neg]

/-- A positive integer is reached by a quotient where its integer part reaches it. -/
theorem le_truncate_iff {k : ℤ} (hk : 0 < k) (q : ℚ) : k ≤ truncate q ↔ (k : ℚ) ≤ q := by
  rcases lt_or_ge q 0 with hneg | hnonneg
  · have hceil : ⌈q⌉ ≤ 0 := Int.ceil_le.mpr (by exact_mod_cast hneg.le)
    have hk' : (0 : ℚ) < k := by exact_mod_cast hk
    rw [truncate, if_pos hneg]
    exact iff_of_false (by omega) (by linarith)
  · rw [truncate_of_nonneg hnonneg, Int.le_floor]

/-- A negative integer is reached from above by a quotient where its integer part reaches it. -/
theorem truncate_le_neg_iff {k : ℤ} (hk : 0 < k) (q : ℚ) :
    truncate q ≤ -k ↔ q ≤ -(k : ℚ) := by
  rw [le_neg, ← truncate_neg, le_truncate_iff hk, le_neg]

namespace FiniteNumber

/-- The number without its sign. -/
def magnitude (x : FiniteNumber) : ℚ := x.significand * 2 ^ x.exponent

/-- The number as an exact quotient. -/
def toRat (x : FiniteNumber) : ℚ := if x.negative then -x.magnitude else x.magnitude

theorem magnitude_nonneg (x : FiniteNumber) : 0 ≤ x.magnitude :=
  mul_nonneg (Nat.cast_nonneg _) (zpow_nonneg zero_le_two _)

theorem truncated_eq_floor (x : FiniteNumber) : (x.truncated : ℤ) = ⌊x.magnitude⌋ := by
  rw [truncated, magnitude]
  split
  · rename_i h
    have hcast : (x.significand : ℚ) * 2 ^ x.exponent =
        ((x.significand * 2 ^ x.exponent.toNat : ℕ) : ℤ) := by
      nth_rewrite 1 [← Int.toNat_of_nonneg h]
      rw [zpow_natCast]
      push_cast
      rfl
    rw [hcast, Int.floor_intCast]
    rfl
  · rename_i h
    have hcast : (x.significand : ℚ) * 2 ^ x.exponent =
        (x.significand : ℚ) / ((2 ^ (-x.exponent).toNat : ℕ) : ℚ) := by
      have hexponent : x.exponent = -((-x.exponent).toNat : ℤ) := by omega
      nth_rewrite 1 [hexponent]
      rw [zpow_neg, zpow_natCast, div_eq_mul_inv]
      push_cast
      rfl
    rw [hcast, Rat.floor_natCast_div_natCast]
    rfl

/-- The integer part that is computed is that of the exact value. -/
theorem integerPart_eq_truncate (x : FiniteNumber) : x.integerPart = truncate x.toRat := by
  rw [integerPart, toRat, truncated_eq_floor, ← truncate_of_nonneg x.magnitude_nonneg]
  split
  · rw [truncate_neg]
  · rfl

/-! ## The range of a word -/

/-- No number has the upper end of the range as its integer part: it is odd, and has more bits
than a significand. -/
theorem truncated_ne_upper (x : FiniteNumber) : x.truncated ≠ 9223372036854775807 := by
  have hsignificand := x.canonical.1
  rw [truncated]
  split
  · cases hexponent : x.exponent.toNat with
    | zero =>
        have hunit : x.significand * Nat.pow 2 0 = x.significand := Nat.mul_one _
        omega
    | succ k =>
        have heven : x.significand * Nat.pow 2 (k + 1) = x.significand * Nat.pow 2 k * 2 := by
          rw [Nat.mul_assoc]
          rfl
        omega
  · have hle := Nat.div_le_self x.significand (Nat.pow 2 (-x.exponent).toNat)
    omega

theorem integerPart_ne_upper (x : FiniteNumber) : x.integerPart ≠ 9223372036854775807 := by
  have hne := x.truncated_ne_upper
  rw [integerPart]
  split <;> omega

theorem clampedPart_eq (x : FiniteNumber) :
    x.clampedPart =
      max (-9223372036854775808) (min x.integerPart 9223372036854775807) := by
  rw [clampedPart]
  split
  · omega
  · split <;> omega

/-- Two numbers are the same when they are held in 64 bits where their integer parts are the same
or lie behind the same end of the range. -/
theorem clampedPart_eq_iff (m n : FiniteNumber) :
    m.clampedPart = n.clampedPart ↔
      m.integerPart = n.integerPart ∨
      (9223372036854775808 ≤ m.integerPart ∧ 9223372036854775808 ≤ n.integerPart) ∨
      (m.integerPart ≤ -9223372036854775808 ∧ n.integerPart ≤ -9223372036854775808) := by
  have hm := m.integerPart_ne_upper
  have hn := n.integerPart_ne_upper
  rw [clampedPart_eq, clampedPart_eq]
  omega

end FiniteNumber

/-! ## Digits -/

namespace Hexadecimal

/-- Digits to base sixteen in upper case, without leading zeros: zero is a single one. -/
def IsNumeral (cs : List Char) : Prop :=
  cs ≠ [] ∧ (∀ c ∈ cs, c.isDigit = true ∨ ('A' ≤ c ∧ c ≤ 'F')) ∧
    (cs.head? = some '0' → cs = ['0'])

theorem digitChar_upper {d : Nat} (h : d < 16) :
    (digitChar d).isDigit = true ∨ ('A' ≤ digitChar d ∧ digitChar d ≤ 'F') := by
  have all : ∀ d, d < 16 →
      ((digitChar d).isDigit = true ∨ ('A' ≤ digitChar d ∧ digitChar d ≤ 'F')) := by decide
  exact all d h

theorem value?_zero : value? 0 ['0'] = some 0 := rfl

/-- Two numbers with the same digits are the same. -/
theorem digits_inj {m n : Nat} (h : digits m = digits n) : m = n := by
  have hvalue := value?_digits m
  rw [h, value?_digits n] at hvalue
  exact (Option.some.inj hvalue).symm

theorem isNumeral_digits (n : Nat) : IsNumeral (digits n) := by
  induction n using Nat.strongRecOn with
  | ind n ih =>
      rw [digits]
      split
      · rename_i h
        refine ⟨List.cons_ne_nil _ _, ?_, ?_⟩
        · intro c hc
          rw [List.mem_singleton.mp hc]
          exact digitChar_upper h
        · intro hhead
          exact congrArg (fun c => [c]) (Option.some.inj hhead)
      · rename_i h
        obtain ⟨hne, hupper, hlead⟩ := ih (n / 16) (by omega)
        refine ⟨List.append_ne_nil_of_left_ne_nil hne _, ?_, ?_⟩
        · intro c hc
          rcases List.mem_append.mp hc with hc | hc
          · exact hupper c hc
          · rw [List.mem_singleton.mp hc]
            exact digitChar_upper (Nat.mod_lt n (by decide))
        · -- The digits of the quotient would be a single zero, and the quotient is not zero.
          intro hhead
          rw [List.head?_append_of_ne_nil _ hne] at hhead
          have hvalue := value?_digits (n / 16)
          rw [hlead hhead, value?_zero, Option.some.injEq] at hvalue
          omega

theorem word_of_nonneg {i : Int} (h : 0 ≤ i) (hlt : i < 18446744073709551616) :
    word i = i.toNat := by
  rw [word, Int.emod_eq_of_lt h hlt]

/-- Integers in the range of 64 bits with a sign have words of their own. -/
theorem word_inj {i j : Int} (hi : -9223372036854775808 ≤ i ∧ i ≤ 9223372036854775807)
    (hj : -9223372036854775808 ≤ j ∧ j ≤ 9223372036854775807) (h : word i = word j) : i = j := by
  unfold word at h
  omega

end Hexadecimal

/-! ## The text of a cast -/

/-- The mark in front of the digits is taken off again. -/
theorem hexDigits_marked (digits : String) : hexDigits ("16#" ++ digits) = digits := by
  have hdrop : Text.dropLead? ['1', '6', '#'] ("16#" ++ digits).toList = some digits.toList := by
    rw [String.toList_append]
    exact Text.dropLead?_append ['1', '6', '#'] digits.toList
  rw [hexDigits, hdrop]
  exact String.ofList_toList

theorem hexText_eq (i : Int) :
    Scalar.hexText i = .text ("16#" ++ String.ofList (Hexadecimal.ofInt i)) := by
  simp only [Scalar.hexText, Scalar.text.injEq, ← String.toList_inj, String.toList_append,
    String.toList_ofList]
  rfl

theorem hexText_inj {i j : Int} (hi : -9223372036854775808 ≤ i ∧ i ≤ 9223372036854775807)
    (hj : -9223372036854775808 ≤ j ∧ j ≤ 9223372036854775807) :
    Scalar.hexText i = Scalar.hexText j ↔ i = j := by
  refine ⟨fun h => ?_, congrArg Scalar.hexText⟩
  simp only [Scalar.hexText, Scalar.text.injEq, String.ofList_inj, List.cons.injEq,
    true_and] at h
  exact Hexadecimal.word_inj hi hj (Hexadecimal.digits_inj h)

theorem literal?_hexCast (n : FiniteNumber) :
    (Operand.cast .hex (.number n)).literal? = some (Scalar.hexText n.clampedPart) := rfl

/-- The digits of a number that is not negative are those of its integer part where this is less
than the 63rd power of two, and of another number elsewhere. -/
theorem value?_ofInt_clampedPart_iff {n : FiniteNumber} (h : 0 ≤ n.integerPart) :
    Hexadecimal.value? 0 (Hexadecimal.ofInt n.clampedPart) = some n.integerPart.toNat ↔
      n.integerPart < 9223372036854775808 := by
  have hclamped := n.clampedPart_eq
  rw [Hexadecimal.ofInt, Hexadecimal.value?_digits,
    Hexadecimal.word_of_nonneg (by omega) (by omega), Option.some.injEq]
  omega

/-- How far the hexadecimal texts of numbers are exact.  Two finite numbers have the same text
where their integer parts are the same, or neither can be held in 64 bits with a sign, because
both are too large, or both too small or just the smallest.  The text of a number that is not
negative is a mark and digits without leading zeros, of which the mark is taken off when the text
is read as a hexadecimal literal.  The digits are those of the integer part where the number is
less than the 63rd power of two, and nowhere else. -/
theorem hex_casts_exact_iff (m n : FiniteNumber) :
    ((Operand.cast .hex (.number m)).literal? = (Operand.cast .hex (.number n)).literal? ↔
      truncate m.toRat = truncate n.toRat ∨
      (9223372036854775808 ≤ m.toRat ∧ 9223372036854775808 ≤ n.toRat) ∨
      (m.toRat ≤ -9223372036854775808 ∧ n.toRat ≤ -9223372036854775808)) ∧
    (0 ≤ n.toRat → ∃ digits : String,
      (Operand.cast .hex (.number n)).literal? = some (.text ("16#" ++ digits)) ∧
      Hexadecimal.IsNumeral digits.toList ∧
      (Operand.hex ("16#" ++ digits)).literal? = some (.text digits) ∧
      (Hexadecimal.value? 0 digits.toList = some (truncate n.toRat).toNat ↔
        n.toRat < 9223372036854775808)) := by
  have hle := le_truncate_iff (k := 9223372036854775808) (by decide)
  have hge := truncate_le_neg_iff (k := 9223372036854775808) (by decide)
  push_cast at hle hge
  refine ⟨?_, ?_⟩
  · rw [literal?_hexCast, literal?_hexCast, Option.some.injEq,
      hexText_inj m.clampedPart_bounds n.clampedPart_bounds, FiniteNumber.clampedPart_eq_iff,
      m.integerPart_eq_truncate, n.integerPart_eq_truncate, hle, hle, hge, hge]
  · intro hn
    have hpart := n.integerPart_eq_truncate
    have hnonneg : 0 ≤ n.integerPart := by
      rw [hpart, truncate_of_nonneg hn]
      exact Int.floor_nonneg.mpr hn
    refine ⟨String.ofList (Hexadecimal.ofInt n.clampedPart), ?_, ?_, ?_, ?_⟩
    · rw [literal?_hexCast, hexText_eq]
    · rw [String.toList_ofList]
      exact Hexadecimal.isNumeral_digits _
    · rw [Operand.literal?, hexDigits_marked]
    · rw [String.toList_ofList, ← hpart, value?_ofInt_clampedPart_iff hnonneg, ← not_le, hpart,
        hle, not_le]

/-! ## Beyond a word -/

/-- The 63rd power of two. -/
def firstBeyond : FiniteNumber := ⟨false, 4503599627370496, 11, by decide⟩

/-- The 64th power of two. -/
def wholeWord : FiniteNumber := ⟨false, 4503599627370496, 12, by decide⟩

/-- The largest number below the 63rd power of two. -/
def lastWithin : FiniteNumber := ⟨false, 9007199254740991, 10, by decide⟩

theorem toRat_wholeWord : wholeWord.toRat = 18446744073709551616 := by
  norm_num [FiniteNumber.toRat, FiniteNumber.magnitude, wholeWord]

theorem toRat_lastWithin : lastWithin.toRat = 9223372036854774784 := by
  norm_num [FiniteNumber.toRat, FiniteNumber.magnitude, lastWithin]

/-- Not all numbers have texts of their own, and not every text is exact: the 63rd and the 64th
power of two have the text of the largest integer below them both. -/
theorem large_numbers_share_hex_text :
    ¬ (∀ m n : FiniteNumber, truncate m.toRat ≠ truncate n.toRat →
        (Operand.cast .hex (.number m)).literal? ≠ (Operand.cast .hex (.number n)).literal?) ∧
    ¬ (∀ n : FiniteNumber, 0 ≤ n.toRat → ∃ digits : String,
        (Operand.cast .hex (.number n)).literal? = some (.text ("16#" ++ digits)) ∧
        Hexadecimal.value? 0 digits.toList = some (truncate n.toRat).toNat) ∧
    (Operand.cast .hex (.number firstBeyond)).literal? = some (.text "16#7FFFFFFFFFFFFFFF") ∧
    (Operand.cast .hex (.number wholeWord)).literal? = some (.text "16#7FFFFFFFFFFFFFFF") := by
  have hfirst : (Operand.cast .hex (.number firstBeyond)).literal? =
      some (.text "16#7FFFFFFFFFFFFFFF") := by decide +kernel
  have hwhole : (Operand.cast .hex (.number wholeWord)).literal? =
      some (.text "16#7FFFFFFFFFFFFFFF") := by decide +kernel
  have hfirstPart : truncate firstBeyond.toRat = 9223372036854775808 := by
    rw [← FiniteNumber.integerPart_eq_truncate]
    decide
  have hwholePart : truncate wholeWord.toRat = 18446744073709551616 := by
    rw [← FiniteNumber.integerPart_eq_truncate]
    decide
  refine ⟨?_, ?_, hfirst, hwhole⟩
  · intro hall
    refine hall firstBeyond wholeWord ?_ (hfirst.trans hwhole.symm)
    rw [hfirstPart, hwholePart]
    decide
  · intro hall
    obtain ⟨digits, htext, hvalue⟩ := hall wholeWord (by rw [toRat_wholeWord]; norm_num)
    have hdigits : "16#7FFFFFFFFFFFFFFF" = "16#" ++ digits := by
      rw [hwhole] at htext
      exact Scalar.text.inj (Option.some.inj htext)
    have hsame : digits = "7FFFFFFFFFFFFFFF" := by
      rw [← hexDigits_marked digits, ← hdigits]
      decide
    rw [hsame, hwholePart] at hvalue
    exact absurd hvalue (by decide)

/-- The largest number below the 63rd power of two has its own digits, and not the text of the
number above it. -/
theorem last_within_exact :
    0 ≤ lastWithin.toRat ∧ lastWithin.toRat < 9223372036854775808 ∧
    (Operand.cast .hex (.number firstBeyond)).literal? ≠
      (Operand.cast .hex (.number lastWithin)).literal? ∧
    (Operand.cast .hex (.number lastWithin)).literal? = some (.text "16#7FFFFFFFFFFFFC00") ∧
    Hexadecimal.IsNumeral "7FFFFFFFFFFFFC00".toList ∧
    (Operand.hex "16#7FFFFFFFFFFFFC00").literal? = some (.text "7FFFFFFFFFFFFC00") ∧
    Hexadecimal.value? 0 "7FFFFFFFFFFFFC00".toList = some 9223372036854774784 := by
  have hnonneg : 0 ≤ lastWithin.toRat := by
    rw [toRat_lastWithin]
    norm_num
  have hlt : lastWithin.toRat < 9223372036854775808 := by
    rw [toRat_lastWithin]
    norm_num
  have hpart : truncate lastWithin.toRat = 9223372036854774784 := by
    rw [← FiniteNumber.integerPart_eq_truncate]
    decide
  have hbeyond : truncate firstBeyond.toRat = 9223372036854775808 := by
    rw [← FiniteNumber.integerPart_eq_truncate]
    decide
  have hliteral : (Operand.cast .hex (.number lastWithin)).literal? =
      some (.text "16#7FFFFFFFFFFFFC00") := by decide +kernel
  obtain ⟨hsame, hdigits⟩ := hex_casts_exact_iff firstBeyond lastWithin
  have hdifferent : (Operand.cast .hex (.number firstBeyond)).literal? ≠
      (Operand.cast .hex (.number lastWithin)).literal? := by
    rw [ne_eq, hsame, hbeyond, hpart, toRat_lastWithin]
    norm_num
  obtain ⟨digits, htext, hnumeral, hread, hexact⟩ := hdigits hnonneg
  have hmarked : "16#" ++ digits = "16#7FFFFFFFFFFFFC00" := by
    rw [hliteral] at htext
    exact (Scalar.text.inj (Option.some.inj htext)).symm
  have hsame : digits = "7FFFFFFFFFFFFC00" := by
    rw [← hexDigits_marked digits, hmarked]
    decide
  have hvalue := hexact.mpr hlt
  rw [hmarked] at hread
  rw [hpart] at hvalue
  rw [hsame] at hnumeral hread hvalue
  exact ⟨hnonneg, hlt, hdifferent, hliteral, hnumeral, hread, hvalue⟩

end AssetAccess
