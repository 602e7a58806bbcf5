import AssetAccess.Number.Decimal
import AssetAccess.Text.Digits
set_option autoImplicit false

/-!
# Notations of a number

How the digits of a double are laid out.  In data files a number is positional
while the exponent of its leading digit is from -5 to 15 and keeps a `.0` where it
is whole; beyond that it has a signed exponent.  As the text of a literal it is
always positional, and a whole number has no point.
-/

namespace AssetAccess.Notation

open AssetAccess.Text (decimal decimalInt)

/-- The digits with the point set, `shift` being the exponent of the last digit. -/
def positional (whole : List Char) (digits : List Char) (shift : Int) : List Char :=
  if 0 ≤ shift then digits ++ List.replicate shift.toNat '0' ++ whole
  else
    let places := (-shift).toNat
    if places < digits.length then
      digits.take (digits.length - places) ++ '.' :: digits.drop (digits.length - places)
    else ['0', '.'] ++ List.replicate (places - digits.length) '0' ++ digits

/-- One digit before the point, the others after it, and the exponent with its sign. -/
def scientific (digits : List Char) (exponent : Int) : List Char :=
  let mantissa :=
    match digits with
    | d :: e :: r => d :: '.' :: e :: r
    | ds => ds
  let sign := if exponent < 0 then '-' else '+'
  mantissa ++ 'e' :: sign :: decimal exponent.natAbs

/-- The sign of a number, where it is written. -/
def sign (x : FiniteNumber) : List Char := if x.negative then ['-'] else []

/-- A number as data files hold it. -/
def data (x : FiniteNumber) : List Char :=
  if x.isZero then sign x ++ ['0', '.', '0']
  else
    let d := Decimal.shortest .toEven x
    let digits := decimal d.digits
    let leading := d.exponent + digits.length - 1
    sign x ++
      if -5 ≤ leading ∧ leading < 16 then positional ['.', '0'] digits d.exponent
      else scientific digits leading

/-- A number as the text of a literal. -/
def plain (x : FiniteNumber) : List Char :=
  if x.isZero then sign x ++ ['0']
  else
    let d := Decimal.shortest .up x
    sign x ++ positional [] (decimal d.digits) d.exponent

/-- Any double as the text of a literal. -/
def literal : Binary64 → List Char
  | .finite x => plain x
  | .infinite negative => (if negative then ['-'] else []) ++ ['i', 'n', 'f']
  | .notANumber => ['N', 'a', 'N']

end AssetAccess.Notation
