set_option autoImplicit false

/-!
# Binary64 numbers

A number literal is a double.  `FiniteNumber` holds a finite one in the only form
`± significand * 2 ^ exponent` that the format admits, so that equality of values
is equality of records (the two zeros apart).  `Binary64` adds the infinities and
the one non-number, which texts such as `inf` stand for.

`ofRatio` rounds an exact quotient to the nearest value, a tie to the even
significand.  It works on natural numbers alone.
-/

namespace AssetAccess

/-- The forms the format admits: 53 bits of significand, and the exponent as small
as the significand allows.  A significand of all 53 bits is at least two to the 52nd power. -/
def Canonical (significand : Nat) (exponent : Int) : Prop :=
  significand < 9007199254740992 ∧ -1074 ≤ exponent ∧ exponent ≤ 971 ∧
    (exponent = -1074 ∨ 4503599627370496 ≤ significand)

instance (significand : Nat) (exponent : Int) : Decidable (Canonical significand exponent) :=
  inferInstanceAs (Decidable (_ ∧ _ ∧ _ ∧ _))

/-- A finite double: `significand * 2 ^ exponent` behind a sign. -/
structure FiniteNumber where
  /-- the sign is minus; zero has both signs -/
  negative : Bool
  significand : Nat
  exponent : Int
  canonical : Canonical significand exponent
  deriving DecidableEq

/-- A double. -/
inductive Binary64 where
  /-- a finite number -/
  | finite (x : FiniteNumber)
  /-- an infinity of either sign -/
  | infinite (negative : Bool)
  /-- no number -/
  | notANumber
  deriving DecidableEq

namespace FiniteNumber

/-- Zero of either sign. -/
def zero (negative : Bool) : FiniteNumber := ⟨negative, 0, -1074, by decide⟩

instance : Inhabited FiniteNumber := ⟨zero false⟩

/-- The number is one of the two zeros. -/
def isZero (x : FiniteNumber) : Bool := x.significand == 0

/-- The magnitude with its fraction dropped. -/
def truncated (x : FiniteNumber) : Nat :=
  if 0 ≤ x.exponent then x.significand * Nat.pow 2 x.exponent.toNat
  else x.significand / Nat.pow 2 (-x.exponent).toNat

/-- The integer part: the fraction is dropped, toward zero. -/
def integerPart (x : FiniteNumber) : Int := if x.negative then -(x.truncated : Int) else x.truncated

/-- The integer part where 64 signed bits hold it, and the nearer end of their range elsewhere. -/
def clampedPart (x : FiniteNumber) : Int :=
  if x.integerPart < -9223372036854775808 then -9223372036854775808
  else if 9223372036854775807 < x.integerPart then 9223372036854775807
  else x.integerPart

theorem clampedPart_bounds (x : FiniteNumber) :
    -9223372036854775808 ≤ x.clampedPart ∧ x.clampedPart ≤ 9223372036854775807 := by
  unfold clampedPart; split
  · omega
  · split <;> omega

end FiniteNumber

namespace Binary64

/-- The value is a number other than an infinity. -/
def isFinite : Binary64 → Bool
  | .finite _ => true
  | .infinite _ => false
  | .notANumber => false

/-- The number, unless it is an infinity or no number at all. -/
def finite? : Binary64 → Option FiniteNumber
  | .finite x => some x
  | .infinite _ => none
  | .notANumber => none

/-- The double of a significand and an exponent; infinite where the exponent is too large. -/
def ofParts (negative : Bool) (significand : Nat) (exponent : Int) : Binary64 :=
  if h : Canonical significand exponent then .finite ⟨negative, significand, exponent, h⟩
  else .infinite negative

/-- The quotient rounded to the nearest natural number, a tie to the even one. -/
def roundToEven (num den : Nat) : Nat :=
  let q := num / den
  let r := num % den
  if 2 * r < den then q
  else if den < 2 * r then q + 1
  else if q % 2 = 0 then q else q + 1

/-- The exponent of the leading bit of a positive quotient. -/
def leadingBit (num den : Nat) : Int :=
  let guess : Int := (num.log2 : Int) - (den.log2 : Int)
  if den * Nat.pow 2 guess.toNat ≤ num * Nat.pow 2 (-guess).toNat then guess else guess - 1

/-- The double nearest to a quotient of natural numbers. -/
def ofRatio (negative : Bool) (num den : Nat) : Binary64 :=
  if num = 0 then .finite (FiniteNumber.zero negative)
  else
    let wanted := leadingBit num den - 52
    let exponent := if wanted < -1074 then -1074 else wanted
    let significand :=
      roundToEven (num * Nat.pow 2 (-exponent).toNat) (den * Nat.pow 2 exponent.toNat)
    if significand = 9007199254740992 then ofParts negative 4503599627370496 (exponent + 1)
    else ofParts negative significand exponent

/-- The double nearest to an integer. -/
def ofInt (i : Int) : Binary64 := ofRatio (decide (i < 0)) i.natAbs 1

/-- The double nearest to `digits * 10 ^ exponent`.  Magnitudes that the number of
digits alone shows to be beyond the range are not multiplied out. -/
def ofDecimal (negative : Bool) (digits : Nat) (exponent : Int) : Binary64 :=
  if digits = 0 then .finite (FiniteNumber.zero negative)
  else if 310 < exponent + (digits.log2 / 4 : Nat) then .infinite negative
  else if exponent + ((digits.log2 + 1) / 3 + 1 : Nat) < -324 then .finite (FiniteNumber.zero negative)
  else if 0 ≤ exponent then ofRatio negative (digits * Nat.pow 10 exponent.toNat) 1
  else ofRatio negative digits (Nat.pow 10 (-exponent).toNat)

end Binary64

end AssetAccess
