import AssetAccess.Formula.Basic
set_option autoImplicit false

/-!
# Attributes that a formula refers to

Every attribute in any operand position of a formula, in the order in which they are
written, repetitions kept.
-/

namespace AssetAccess

namespace Operand

/-- The attributes of an operand. -/
def attributes : Operand → List Attribute
  | .attribute a => [a]
  | .datePart _ o => attributes o
  | .cast _ o => attributes o
  | _ => []

end Operand

namespace TextOperand

/-- The attributes of an operand of a text test. -/
def attributes : TextOperand → List Attribute
  | .attribute a => [a]
  | .cast o => o.attributes
  | _ => []

end TextOperand

namespace Formula

mutual

/-- The attributes of a formula. -/
def attributes : Formula → List Attribute
  | .allOf parts => attributesAll parts
  | .anyOf parts => attributesAll parts
  | .matchOf parts => attributesAll parts
  | .negation part => attributes part
  | .comparison _ operands => operands.flatMap Operand.attributes
  | .textTest _ operands => operands.flatMap TextOperand.attributes
  | .constant _ => []

/-- The attributes of some formulas. -/
def attributesAll : List Formula → List Attribute
  | [] => []
  | f :: fs => attributes f ++ attributesAll fs

end

/-- The attributes of some formulas are those of each, in order. -/
theorem attributesAll_eq_flatMap (fs : List Formula) :
    attributesAll fs = fs.flatMap attributes := by
  induction fs with
  | nil => rfl
  | cons f fs ih => rw [attributesAll, List.flatMap_cons, ih]

end Formula

end AssetAccess
