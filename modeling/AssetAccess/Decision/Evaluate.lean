import AssetAccess.Decision.Attributes
import AssetAccess.Field
import AssetAccess.Text.Order
set_option autoImplicit false

/-!
# Evaluating a formula

A formula is evaluated where everything on the left of a comparison is looked up: a
field of the model among the attributes of the target, a claim or a global attribute
among the resolved ones.  A comparison of what is not there, or not of one kind, has no
order, and every test for an order fails then.  `ne` is the negation of `eq`, so it
holds exactly where `eq` fails.
-/

namespace AssetAccess

/-- The attributes of a target, by the path of the field. -/
abbrev TargetAttributes := List (String × Operand)

/-- What a formula is evaluated in. -/
structure Environment where
  target : TargetAttributes
  resolved : Resolved

namespace Environment

/-- A field against an operand: texts by their order, times of day by theirs. -/
def compareField (env : Environment) (path : String) (right : Operand) : Option Ordering :=
  match Table.last? path env.target, right with
  | some (.text a), .text b => some (Text.order a b)
  | some (.time a), .time b =>
    match TimeOfDay.read? a.toList, TimeOfDay.read? b.toList with
    | some s, some t => some (s.order t)
    | _, _ => none
  | _, _ => none

/-- A global attribute against an operand: a time of day, or another global attribute. -/
def compareGlobal (env : Environment) (g : Global) (right : Operand) : Option Ordering :=
  match env.resolved.global? g with
  | none => none
  | some now =>
    match right with
    | .time s => (TimeOfDay.read? s.toList).map now.order
    | .attribute (.global h) => (env.resolved.global? h).map now.order
    | _ => none

/-- The order of two operands, if they have one.  A list of texts is neither before nor
after any text. -/
def compare (env : Environment) (left right : Operand) : Option Ordering :=
  match left with
  | .field path => if Field.isModelPath path then env.compareField path right else none
  | .attribute (.claim path) =>
    match right with
    | .text expected =>
      match env.resolved.claim? path with
      | some (.text actual) => some (Text.order actual expected)
      | some (.list _) => some .eq
      | none => none
    | _ => none
  | .attribute (.global g) => env.compareGlobal g right
  | _ => none

/-- Two operands are equal: of a list of texts, one is. -/
def equal (env : Environment) (left right : Operand) : Bool :=
  match left, right with
  | .attribute (.claim path), .text expected =>
    match env.resolved.claim? path with
    | some (.text actual) => decide (actual = expected)
    | some (.list items) => decide (expected ∈ items)
    | none => false
  | left, right => decide (env.compare left right = some .eq)

/-- A comparison of two operands. -/
def test (env : Environment) (op : Comparison) (left right : Operand) : Bool :=
  match op with
  | .eq => env.equal left right
  | .ne => !env.equal left right
  | .le => (env.compare left right).any Ordering.isLE
  | .lt => (env.compare left right).any Ordering.isLT
  | .ge => (env.compare left right).any Ordering.isGE
  | .gt => (env.compare left right).any Ordering.isGT

/-- A comparison of a list of operands: false for any number of them but two. -/
def testAll (env : Environment) (op : Comparison) (operands : List Operand) : Bool :=
  match pair? operands with
  | some (left, right) => env.test op left right
  | none => false

end Environment

namespace Formula

mutual

/-- The formula holds.  A conjunction of nothing does not, and text tests never do. -/
def holds (env : Environment) : Formula → Bool
  | .allOf parts => !parts.isEmpty && holdsForAll env parts
  | .matchOf parts => !parts.isEmpty && holdsForAll env parts
  | .anyOf parts => holdsForSome env parts
  | .negation part => !holds env part
  | .comparison op operands => env.testAll op operands
  | .textTest _ _ => false
  | .constant b => b

/-- Every one of some formulas holds. -/
def holdsForAll (env : Environment) : List Formula → Bool
  | [] => true
  | f :: fs => holds env f && holdsForAll env fs

/-- One of some formulas holds. -/
def holdsForSome (env : Environment) : List Formula → Bool
  | [] => false
  | f :: fs => holds env f || holdsForSome env fs

end

theorem holdsForAll_eq_all (env : Environment) (fs : List Formula) :
    holdsForAll env fs = fs.all (holds env) := by
  induction fs with
  | nil => rfl
  | cons f fs ih => rw [holdsForAll, List.all_cons, ih]

theorem holdsForSome_eq_any (env : Environment) (fs : List Formula) :
    holdsForSome env fs = fs.any (holds env) := by
  induction fs with
  | nil => rfl
  | cons f fs ih => rw [holdsForSome, List.any_cons, ih]

end Formula

end AssetAccess
