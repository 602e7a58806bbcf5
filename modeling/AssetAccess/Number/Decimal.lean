import AssetAccess.Number.Binary64
set_option autoImplicit false

/-!
# Decimal numerals

Decimal texts taken apart into whole digits, fraction digits and exponent, with the
two grammars that accept them (the strict one of data files and the free one of
casts), and the other direction: the fewest digits that still round to a given
double.

The search for the fewest digits is exact.  The reals that round to
`m * 2 ^ q` lie between the halfway points to the two neighbours, the ends
included exactly when `m` is even.  For one, two, ... seventeen digits the two
points of that decimal grid around the value are tried, and the first grid with a
point inside wins.
-/

namespace AssetAccess

/-- The magnitude `digits * 10 ^ exponent`. -/
structure Decimal where
  digits : Nat
  exponent : Int
  deriving DecidableEq

namespace Decimal

/-! ## Reading -/

/-- A decimal text taken apart, before any rule on its parts is applied. -/
structure Parts where
  /-- the digits before the point -/
  whole : List Char
  /-- the digits after the point, where there is a point -/
  fraction : Option (List Char)
  /-- the exponent, where there is one -/
  exponent : Option Int

/-- Digits, and nothing else, as a natural number. -/
def natural? (cs : List Char) : Option Nat :=
  if cs.isEmpty || !cs.all Char.isDigit then none
  else some (cs.foldl (fun n c => 10 * n + (c.toNat - 48)) 0)

/-- Digits behind at most one sign. -/
def signed? : List Char → Option Int
  | '-' :: cs => (natural? cs).map fun n => -(n : Int)
  | '+' :: cs => (natural? cs).map fun n => (n : Int)
  | cs => (natural? cs).map fun n => (n : Int)

/-- The parts of an unsigned decimal text. -/
def parts? (cs : List Char) : Option Parts :=
  let whole := cs.takeWhile Char.isDigit
  let (fraction, rest) :=
    match cs.dropWhile Char.isDigit with
    | '.' :: r => (some (r.takeWhile Char.isDigit), r.dropWhile Char.isDigit)
    | r => (none, r)
  match rest with
  | [] => some ⟨whole, fraction, none⟩
  | e :: r =>
    if e = 'e' ∨ e = 'E' then (signed? r).map fun x => ⟨whole, fraction, some x⟩ else none

namespace Parts

/-- The magnitude that the parts stand for. -/
def value (p : Parts) : Decimal :=
  let fraction := p.fraction.getD []
  ⟨(p.whole ++ fraction).foldl (fun n c => 10 * n + (c.toNat - 48)) 0,
    p.exponent.getD 0 - fraction.length⟩

/-- The text has neither point nor exponent. -/
def isInteger (p : Parts) : Bool := p.fraction.isNone && p.exponent.isNone

/-- The strict grammar: a digit before the point, no needless leading zero, and a digit
after the point if there is one. -/
def isStrict (p : Parts) : Bool :=
  (p.whole == ['0'] || (!p.whole.isEmpty && p.whole.head? != some '0')) &&
    p.fraction != some []

/-- The free grammar: a digit somewhere before the exponent. -/
def isFree (p : Parts) : Bool :=
  !p.whole.isEmpty || !(p.fraction.getD []).isEmpty

end Parts

/-! ## The fewest digits -/

/-- Which of two equally near candidates is taken. -/
inductive Tie where
  /-- the one whose last digit is even -/
  | toEven
  /-- the larger one -/
  | up
  deriving DecidableEq

/-- `a * 10 ^ i` and `n * 2 ^ j` brought to one scale. -/
def scaled (a : Nat) (i : Int) (n : Nat) (j : Int) : Nat × Nat :=
  (a * Nat.pow 10 i.toNat * Nat.pow 2 (-j).toNat,
    n * Nat.pow 2 j.toNat * Nat.pow 10 (-i).toNat)

/-- The decimal lies among the reals that round to the number. -/
def readsBack (x : FiniteNumber) (d : Decimal) : Bool :=
  let m := x.significand
  let narrow := m == 4503599627370496 && decide (-1074 < x.exponent)
  let low := if narrow then 4 * m - 1 else 4 * m - 2
  let (a, l) := scaled d.digits d.exponent low (x.exponent - 2)
  let (b, h) := scaled d.digits d.exponent (4 * m + 2) (x.exponent - 2)
  if m % 2 = 0 then decide (l ≤ a) && decide (b ≤ h) else decide (l < a) && decide (b < h)

/-- The least power of ten above the magnitude of a number other than zero. -/
def scale (x : FiniteNumber) : Int :=
  let guess := ((x.significand.log2 : Int) + x.exponent) * 30103 / 100000
  let above (k : Int) : Bool :=
    let (ten, value) := scaled 1 k x.significand x.exponent
    decide (value < ten)
  ([guess - 1, guess, guess + 1].find? above).getD (guess + 2)

/-- The nearest of the points with `count` digits that round to the number, if any does. -/
def withDigits? (tie : Tie) (x : FiniteNumber) (k : Int) (count : Nat) : Option Decimal :=
  let grid := k - count
  let (unit, value) := scaled 1 grid x.significand x.exponent
  let lower := value / unit
  let below : Decimal := ⟨lower, grid⟩
  let above : Decimal := ⟨lower + 1, grid⟩
  match readsBack x below, readsBack x above with
  | false, false => none
  | true, false => some below
  | false, true => some above
  | true, true =>
    let middle := (2 * lower + 1) * unit
    if 2 * value < middle then some below
    else if middle < 2 * value then some above
    else
      match tie with
      | .up => some above
      | .toEven => some (if lower % 2 = 0 then below else above)

/-- The exact decimal value of a number. -/
def exact (x : FiniteNumber) : Decimal :=
  if 0 ≤ x.exponent then ⟨x.significand * Nat.pow 2 x.exponent.toNat, 0⟩
  else ⟨x.significand * Nat.pow 5 (-x.exponent).toNat, x.exponent⟩

/-- The same value without trailing zeros among its digits. -/
def stripped : Nat → Decimal → Decimal
  | 0, d => d
  | bound + 1, d =>
    if d.digits ≠ 0 ∧ d.digits % 10 = 0 then stripped bound ⟨d.digits / 10, d.exponent + 1⟩ else d

/-- The fewest digits that round to a number other than zero. -/
def shortest (tie : Tie) (x : FiniteNumber) : Decimal :=
  let k := scale x
  stripped 20
    (((List.range 17).findSome? fun i => withDigits? tie x k (i + 1)).getD (exact x))

end Decimal

namespace Binary64

/-- The double that a free decimal text stands for: an optional sign, then digits, or
one of the words for infinity and for no number, in either case. -/
def ofText? (cs : List Char) : Option Binary64 :=
  let (negative, rest) :=
    match cs with
    | '-' :: r => (true, r)
    | '+' :: r => (false, r)
    | r => (false, r)
  let word := rest.map Char.toLower
  if word = ['i', 'n', 'f'] ∨ word = ['i', 'n', 'f', 'i', 'n', 'i', 't', 'y'] then
    some (.infinite negative)
  else if word = ['n', 'a', 'n'] then some .notANumber
  else
    match Decimal.parts? rest with
    | none => none
    | some p =>
      if p.isFree then some (ofDecimal negative p.value.digits p.value.exponent) else none

end Binary64

end AssetAccess
