import AssetAccess.Search.Script
import AssetAccess.Search.Wildcard
set_option autoImplicit false

/-!
# From conditions to clauses

A condition is compiled for the index leaf by leaf.  A comparison or a text test needs a
field on one side and a literal on the other, or a field on both; the field may stand
under casts and on either side.  What cannot be put to the index (a wrong number of
operands, no field, no literal, names that cannot be quoted, patterns between fields, a
connective of nothing) matches every document.
-/

namespace AssetAccess

namespace Comparison

/-- The clause that compares a field with a literal. -/
def clause (op : Comparison) (field : String) (value : Scalar) : Clause :=
  match op with
  | .eq => .term field value
  | .ne => Clause.negated (.term field value)
  | .gt => .range field .gt value
  | .ge => .range field .gte value
  | .lt => .range field .lt value
  | .le => .range field .lte value

/-- The clause of a comparison of two operands; nothing where it cannot be put to the index.
With the literal on the left the comparison is mirrored. -/
def clauseOf? (op : Comparison) (left right : Operand) : Option Clause :=
  match left.indexName?, right.indexName? with
  | some l, some r => Script.comparison? op l left.castType? r right.castType?
  | some field, none => right.literal?.map (op.clause field)
  | none, some field => left.literal?.map (op.mirrored.clause field)
  | none, none => none

/-- The clause of a comparison. -/
def clause? (op : Comparison) (operands : List Operand) : Option Clause :=
  (pair? operands).bind fun p => op.clauseOf? p.1 p.2

end Comparison

namespace TextTest

/-- The clause that tests a field against a literal. -/
def clause (op : TextTest) (field : String) (value : String) : Clause :=
  match op with
  | .contains => .wildcard field (String.ofList (Wildcard.holding value.toList))
  | .startsWith => .wildcard field (String.ofList (Wildcard.beginning value.toList))
  | .endsWith => .wildcard field (String.ofList (Wildcard.ending value.toList))
  | .regex => .regexp field (String.ofList (Wildcard.withoutAnchors value.toList))

/-- The clause of a text test of two operands; nothing where it cannot be put to the index.
The side that the literal stands on does not matter. -/
def clauseOf? (op : TextTest) (left right : TextOperand) : Option Clause :=
  match left.indexName?, right.indexName? with
  | some l, some r => Script.textTest? op l r
  | some field, none => right.literal?.map (op.clause field)
  | none, some field => left.literal?.map (op.clause field)
  | none, none => none

/-- The clause of a text test. -/
def clause? (op : TextTest) (operands : List TextOperand) : Option Clause :=
  (pair? operands).bind fun p => op.clauseOf? p.1 p.2

end TextTest

namespace Formula

mutual

/-- The clause of a condition. -/
def compile : Formula → Clause
  | .allOf [] => .matchAll
  | .allOf (f :: fs) => Clause.allOf (compile f :: compileAll fs)
  | .matchOf [] => .matchAll
  | .matchOf (f :: fs) => Clause.allOf (compile f :: compileAll fs)
  | .anyOf [] => .matchAll
  | .anyOf (f :: fs) => Clause.anyOf (compile f :: compileAll fs)
  | .negation f => Clause.negated (compile f)
  | .constant true => .matchAll
  | .constant false => .matchNone
  | .comparison op operands => (op.clause? operands).getD .matchAll
  | .textTest op operands => (op.clause? operands).getD .matchAll

/-- The clauses of some conditions. -/
def compileAll : List Formula → List Clause
  | [] => []
  | f :: fs => compile f :: compileAll fs

end

theorem compileAll_eq_map (fs : List Formula) : compileAll fs = fs.map compile := by
  induction fs with
  | nil => rfl
  | cons f fs ih => rw [compileAll, List.map_cons, ih]

end Formula

/-- The clause of a conjunction of something. -/
theorem compile_allOf {parts : List Formula} (h : parts ≠ []) :
    (Formula.allOf parts).compile = Clause.allOf (parts.map Formula.compile) := by
  cases parts with
  | nil => exact absurd rfl h
  | cons f fs => rw [Formula.compile, Formula.compileAll_eq_map, List.map_cons]

/-- The clause of a disjunction of something. -/
theorem compile_anyOf {parts : List Formula} (h : parts ≠ []) :
    (Formula.anyOf parts).compile = Clause.anyOf (parts.map Formula.compile) := by
  cases parts with
  | nil => exact absurd rfl h
  | cons f fs => rw [Formula.compile, Formula.compileAll_eq_map, List.map_cons]

/-- A conjunction of match expressions is compiled as any other conjunction. -/
theorem compile_matchOf (parts : List Formula) :
    (Formula.matchOf parts).compile = (Formula.allOf parts).compile := by
  cases parts with
  | nil => rfl
  | cons f fs => rfl

namespace Query

/-- The clause of a query.  Without a condition every document matches. -/
def compile (q : Query) : Clause :=
  match q.condition with
  | some f => f.compile
  | none => .matchAll

end Query

end AssetAccess
