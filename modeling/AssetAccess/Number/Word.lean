import AssetAccess.Number.Decimal
set_option autoImplicit false

/-!
# Whole numbers of 64 bits

Decimal texts of the numbers that a 64-bit word holds.  Leading zeros are allowed.
-/

namespace AssetAccess.Word

/-- Digits behind at most a plus sign, as a number below `2 ^ 64`. -/
def unsigned? (cs : List Char) : Option Nat :=
  let digits :=
    match cs with
    | '+' :: r => r
    | r => r
  match Decimal.natural? digits with
  | some n => if n < 18446744073709551616 then some n else none
  | none => none

/-- Digits behind a minus sign, as a number not below `-2 ^ 63`. -/
def negative? : List Char → Option Int
  | '-' :: r =>
    match Decimal.natural? r with
    | some n => if n ≤ 9223372036854775808 then some (-(n : Int)) else none
    | none => none
  | _ => none

end AssetAccess.Word
