set_option autoImplicit false

/-!
# Hexadecimal numerals

Upper-case digits to base sixteen without leading zeros, and the 64-bit word whose
digits a negative integer is written with.
-/

namespace AssetAccess.Hexadecimal

/-- The upper-case character of a digit below sixteen. -/
def digitChar (d : Nat) : Char := if d < 10 then Char.ofNat (48 + d) else Char.ofNat (55 + d)

/-- The digits of a natural number, most significant first; one zero for zero. -/
def digits (n : Nat) : List Char :=
  if n < 16 then [digitChar n] else digits (n / 16) ++ [digitChar (n % 16)]
termination_by n
decreasing_by omega

/-- The value of a digit of either case. -/
def digit? (c : Char) : Option Nat :=
  if c.isDigit then some (c.toNat - 48)
  else if 65 ≤ c.toNat ∧ c.toNat ≤ 70 then some (c.toNat - 55)
  else if 97 ≤ c.toNat ∧ c.toNat ≤ 102 then some (c.toNat - 87)
  else none

/-- The number that a run of digits stands for, read after the value `before`. -/
def value? (before : Nat) : List Char → Option Nat
  | [] => some before
  | c :: cs =>
    match digit? c with
    | some d => value? (16 * before + d) cs
    | none => none

theorem digit?_digitChar {d : Nat} (h : d < 16) : digit? (digitChar d) = some d := by
  have all : ∀ d, d < 16 → digit? (digitChar d) = some d := by decide
  exact all d h

theorem value?_append (before : Nat) (xs ys : List Char) :
    value? before (xs ++ ys) = (value? before xs).bind fun n => value? n ys := by
  induction xs generalizing before with
  | nil => rfl
  | cons x xs ih =>
    simp only [List.cons_append, value?]
    split <;> simp [ih]

/-- The digits of a number have that number as their value. -/
theorem value?_digits (n : Nat) : value? 0 (digits n) = some n := by
  induction n using Nat.strongRecOn with
  | ind n ih =>
    unfold digits; split
    · rename_i h
      simp [value?, digit?_digitChar h]
    · rw [value?_append, ih (n / 16) (by omega)]
      simp only [Option.bind_some, value?, digit?_digitChar (Nat.mod_lt n (by omega : 0 < 16))]
      congr 1
      omega

/-- The 64-bit word of an integer, negative ones in two's complement. -/
def word (i : Int) : Nat := (i % 18446744073709551616).toNat

/-- The digits of the 64-bit word of an integer. -/
def ofInt (i : Int) : List Char := digits (word i)

end AssetAccess.Hexadecimal
