set_option autoImplicit false

/-!
# Decimal digits

Fixed-width decimal fields, as they stand in dates and times, written and read
back; and the digits of a natural number without padding.
-/

namespace AssetAccess.Text

/-- The value of an ASCII decimal digit. -/
def digit? (c : Char) : Option Nat := if c.isDigit then some (c.toNat - 48) else none

/-- The character of a decimal digit. -/
def digitChar (d : Nat) : Char := Char.ofNat (48 + d)

/-- The lowest `width` decimal digits of a number, leading zeros kept. -/
def padded : Nat → Nat → List Char
  | 0, _ => []
  | width + 1, n => padded width (n / 10) ++ [digitChar (n % 10)]

/-- The number that a run of digits stands for, read after the value `before`. -/
def numeral? (before : Nat) : List Char → Option Nat
  | [] => some before
  | c :: cs =>
    match digit? c with
    | some d => numeral? (10 * before + d) cs
    | none => none

/-- Exactly `width` digits at the front of a text, and what follows them. -/
def fixed? (width : Nat) (cs : List Char) : Option (Nat × List Char) :=
  if cs.length < width then none
  else (numeral? 0 (cs.take width)).map fun n => (n, cs.drop width)

/-- One given character at the front of a text. -/
def mark? (m : Char) : List Char → Option (List Char)
  | [] => none
  | c :: cs => if c = m then some cs else none

/-- The decimal digits of a natural number, most significant first; one zero for zero. -/
def decimal (n : Nat) : List Char :=
  if n < 10 then [digitChar n] else decimal (n / 10) ++ [digitChar (n % 10)]
termination_by n
decreasing_by omega

/-- The decimal digits of an integer, behind a minus sign where it is negative. -/
def decimalInt (i : Int) : List Char :=
  if i < 0 then '-' :: decimal i.natAbs else decimal i.natAbs

/-- Every digit is read back from its character. -/
theorem digit?_digitChar {d : Nat} (h : d < 10) : digit? (digitChar d) = some d := by
  have all : ∀ d, d < 10 → digit? (digitChar d) = some d := by decide
  exact all d h

theorem length_padded (width n : Nat) : (padded width n).length = width := by
  induction width generalizing n with
  | zero => rfl
  | succ w ih => simp [padded, ih]

theorem numeral?_append (before : Nat) (xs ys : List Char) :
    numeral? before (xs ++ ys) = (numeral? before xs).bind fun n => numeral? n ys := by
  induction xs generalizing before with
  | nil => rfl
  | cons x xs ih =>
    simp only [List.cons_append, numeral?]
    split <;> simp [ih]

/-- A padded field reads back as the number it was written for, if that fits its width. -/
theorem numeral?_padded (width n before : Nat) (h : n < Nat.pow 10 width) :
    numeral? before (padded width n) = some (before * Nat.pow 10 width + n) := by
  induction width generalizing n with
  | zero =>
    have hn : n = 0 := Nat.lt_one_iff.1 h
    subst hn
    exact congrArg some (Nat.mul_one before).symm
  | succ w ih =>
    have hs : Nat.pow 10 (w + 1) = Nat.pow 10 w * 10 := rfl
    have hq : n / 10 < Nat.pow 10 w := by rw [Nat.div_lt_iff_lt_mul (by omega)]; rwa [hs] at h
    simp only [padded, numeral?_append, ih _ hq, Option.bind_some, numeral?,
      digit?_digitChar (Nat.mod_lt n (by omega : 0 < 10))]
    congr 1
    rw [hs, ← Nat.mul_assoc]
    generalize before * Nat.pow 10 w = p
    omega

/-- A padded field is read off the front of a text. -/
theorem fixed?_padded (width n : Nat) (rest : List Char) (h : n < Nat.pow 10 width) :
    fixed? width (padded width n ++ rest) = some (n, rest) := by
  have hl := length_padded width n
  have ht : (padded width n ++ rest).take width = padded width n := by
    rw [List.take_append_of_le_length (by omega), List.take_of_length_le (by omega)]
  have hd : (padded width n ++ rest).drop width = rest := by
    rw [List.drop_append_of_le_length (by omega), List.drop_of_length_le (by omega), List.nil_append]
  rw [fixed?, if_neg (by simp [hl]), ht, hd, numeral?_padded width n 0 h]
  simp

/-- A field of two digits is read off the front of a text. -/
theorem fixed?_padded_two (n : Nat) (rest : List Char) (h : n < 100) :
    fixed? 2 (padded 2 n ++ rest) = some (n, rest) := fixed?_padded 2 n rest h

end AssetAccess.Text
