import AssetAccess.Number.Decimal
set_option autoImplicit false

/-!
# Numbers read by scaling

A number in a data text is read in three steps, each of which rounds.  The leading digits
that fit a 64-bit word make a whole number, the others count by their position alone; the
whole number becomes a double; and the double is multiplied or divided by a power of ten,
which is a double itself.

So the double that is read may be a neighbour of the one nearest to the text: `3e23` is
read as `2.9999999999999997e23`, and a text close below the largest double may be out of
range.  Where a text is cast to a number it is rounded once (`Binary64.ofText?`).
-/

namespace AssetAccess

namespace FiniteNumber

/-- The magnitude as a quotient. -/
def quotient (x : FiniteNumber) : Nat × Nat :=
  if 0 ≤ x.exponent then (x.significand * Nat.pow 2 x.exponent.toNat, 1)
  else (x.significand, Nat.pow 2 (-x.exponent).toNat)

/-- The double nearest to a product; the sign is that of the first factor. -/
def times (x y : FiniteNumber) : Binary64 :=
  Binary64.ofRatio x.negative (x.quotient.1 * y.quotient.1) (x.quotient.2 * y.quotient.2)

/-- The double nearest to the quotient of two numbers, the second other than zero; the sign
is that of the first. -/
def dividedBy (x y : FiniteNumber) : Binary64 :=
  Binary64.ofRatio x.negative (x.quotient.1 * y.quotient.2) (x.quotient.2 * y.quotient.1)

end FiniteNumber

namespace Scaled

/-- The largest exponent of a power of ten that is a double. -/
def maxPower : Nat := 308

/-- A number times the double of a power of ten. -/
def raise (x : FiniteNumber) (power : Nat) : Binary64 :=
  match Binary64.ofRatio false (Nat.pow 10 power) 1 with
  | .finite ten => x.times ten
  | beyond => beyond

/-- A number over the double of a power of ten. -/
def lower (x : FiniteNumber) (power : Nat) : Binary64 :=
  match Binary64.ofRatio false (Nat.pow 10 power) 1 with
  | .finite ten => x.dividedBy ten
  | _ => .finite (FiniteNumber.zero x.negative)

/-- A number over the largest power of ten, so many times; zero stays what it is. -/
def lowerFully : Nat → FiniteNumber → Binary64
  | 0, x => .finite x
  | times + 1, x =>
    if x.isZero then .finite x
    else
      match lower x maxPower with
      | .finite y => lowerFully times y
      | beyond => beyond

/-- A number divided by ten to some power, the largest power at a time, the rest at last. -/
def lowerBy (x : FiniteNumber) (power : Nat) : Binary64 :=
  let times := (power - 1) / maxPower
  match lowerFully times x with
  | .finite y => lower y (power - times * maxPower)
  | beyond => beyond

/-- A number times ten to some power. -/
def scale (x : FiniteNumber) (power : Int) : Binary64 :=
  if power < 0 then lowerBy x power.natAbs
  else if power.toNat ≤ maxPower then raise x power.toNat
  else if x.isZero then .finite x
  else .infinite x.negative

/-- A whole number and the power of ten it counts. -/
structure Kept where
  significand : Nat
  power : Int

/-- The whole digits, read after the value `before`: once a digit no longer fits, it and those
behind it only count. -/
def keepWhole (before : Nat) : List Char → Kept
  | [] => ⟨before, 0⟩
  | c :: cs =>
    let n := 10 * before + (c.toNat - 48)
    if n < 18446744073709551616 then keepWhole n cs else ⟨before, cs.length + 1⟩

/-- The fraction digits, read after what is kept: once a digit no longer fits, it and those
behind it are dropped. -/
def keepFraction (k : Kept) : List Char → Kept
  | [] => k
  | c :: cs =>
    let n := 10 * k.significand + (c.toNat - 48)
    if n < 18446744073709551616 then keepFraction ⟨n, k.power - 1⟩ cs else k

/-- What is kept of a decimal text. -/
def keep (p : Decimal.Parts) : Kept :=
  let k := keepFraction (keepWhole 0 p.whole) (p.fraction.getD [])
  ⟨k.significand, k.power + p.exponent.getD 0⟩

/-- The double that is read for a decimal text behind a sign. -/
def read (negative : Bool) (p : Decimal.Parts) : Binary64 :=
  let k := keep p
  match Binary64.ofRatio negative k.significand 1 with
  | .finite x => scale x k.power
  | beyond => beyond

end Scaled

end AssetAccess
