import AssetAccess.Decision.Evaluate
import AssetAccess.Formula.References
set_option autoImplicit false

/-!
# Formulas and their leaves

A formula is a tree of connectives whose lists of parts have any length.  What is true
of a formula is proved by one induction, whose hypothesis holds for every part of a list.

The connectives do the same whatever the leaves are asked: `truth` gives a formula its
value from the values of its comparisons, and an evaluation is `truth` at some reading of
them.  So two evaluations are compared leaf by leaf (`truth_congr`).
-/

namespace AssetAccess

/-! ## Induction -/

/-- What holds of a formula whenever it holds of its parts holds of every formula. -/
@[elab_as_elim, induction_eliminator]
theorem Formula.induction {motive : Formula → Prop}
    (allOf : ∀ parts, (∀ f ∈ parts, motive f) → motive (.allOf parts))
    (anyOf : ∀ parts, (∀ f ∈ parts, motive f) → motive (.anyOf parts))
    (negation : ∀ part, motive part → motive (.negation part))
    (comparison : ∀ op operands, motive (.comparison op operands))
    (textTest : ∀ op operands, motive (.textTest op operands))
    (constant : ∀ b, motive (.constant b))
    (matchOf : ∀ parts, (∀ f ∈ parts, motive f) → motive (.matchOf parts)) :
    ∀ f, motive f
  | .allOf parts => allOf parts fun f _ =>
      Formula.induction allOf anyOf negation comparison textTest constant matchOf f
  | .anyOf parts => anyOf parts fun f _ =>
      Formula.induction allOf anyOf negation comparison textTest constant matchOf f
  | .negation part => negation part
      (Formula.induction allOf anyOf negation comparison textTest constant matchOf part)
  | .comparison op operands => comparison op operands
  | .textTest op operands => textTest op operands
  | .constant b => constant b
  | .matchOf parts => matchOf parts fun f _ =>
      Formula.induction allOf anyOf negation comparison textTest constant matchOf f

/-! ## Fields -/

namespace Operand

/-- The paths of the fields of an operand. -/
def fields : Operand → List String
  | .field path => [path]
  | .datePart _ o => fields o
  | .cast _ o => fields o
  | _ => []

end Operand

namespace TextOperand

/-- The paths of the fields of an operand of a text test. -/
def fields : TextOperand → List String
  | .field path => [path]
  | .cast o => o.fields
  | _ => []

end TextOperand

namespace Formula

mutual

/-- The paths of the fields of a formula, as often as they are written. -/
def fields : Formula → List String
  | .allOf parts => fieldsAll parts
  | .anyOf parts => fieldsAll parts
  | .matchOf parts => fieldsAll parts
  | .negation part => fields part
  | .comparison _ operands => operands.flatMap Operand.fields
  | .textTest _ operands => operands.flatMap TextOperand.fields
  | .constant _ => []

/-- The paths of the fields of some formulas. -/
def fieldsAll : List Formula → List String
  | [] => []
  | f :: fs => fields f ++ fieldsAll fs

end

theorem fieldsAll_eq_flatMap (fs : List Formula) : fieldsAll fs = fs.flatMap fields := by
  induction fs with
  | nil => rfl
  | cons f fs ih => rw [fieldsAll, List.flatMap_cons, ih]

/-! ## Parts -/

/-- The formula is a part of another one, at any depth; it is a part of itself. -/
inductive IsPartOf (part : Formula) : Formula → Prop where
  | self : IsPartOf part part
  | allOf {parts : List Formula} {f : Formula} :
      f ∈ parts → IsPartOf part f → IsPartOf part (.allOf parts)
  | anyOf {parts : List Formula} {f : Formula} :
      f ∈ parts → IsPartOf part f → IsPartOf part (.anyOf parts)
  | matchOf {parts : List Formula} {f : Formula} :
      f ∈ parts → IsPartOf part f → IsPartOf part (.matchOf parts)
  | negation {f : Formula} : IsPartOf part f → IsPartOf part (.negation f)

/-- The fields of a part are fields of the formula. -/
theorem IsPartOf.field_mem {part f : Formula} (h : part.IsPartOf f) {path : String}
    (hpath : path ∈ part.fields) : path ∈ f.fields := by
  induction h with
  | self => exact hpath
  | allOf hmem _ ih | anyOf hmem _ ih | matchOf hmem _ ih =>
      rw [fields, fieldsAll_eq_flatMap, List.mem_flatMap]
      exact ⟨_, hmem, ih⟩
  | negation _ ih =>
      rw [fields]
      exact ih

/-! ## Comparisons -/

/-- The formula has a comparison of some operands as a leaf. -/
inductive HasComparison (op : Comparison) (operands : List Operand) : Formula → Prop where
  | here : HasComparison op operands (.comparison op operands)
  | allOf {parts : List Formula} {f : Formula} :
      f ∈ parts → HasComparison op operands f → HasComparison op operands (.allOf parts)
  | anyOf {parts : List Formula} {f : Formula} :
      f ∈ parts → HasComparison op operands f → HasComparison op operands (.anyOf parts)
  | matchOf {parts : List Formula} {f : Formula} :
      f ∈ parts → HasComparison op operands f → HasComparison op operands (.matchOf parts)
  | negation {part : Formula} :
      HasComparison op operands part → HasComparison op operands (.negation part)

/-- The attributes of a leaf are attributes of the formula. -/
theorem HasComparison.attribute_mem {op : Comparison} {operands : List Operand} {f : Formula}
    (h : f.HasComparison op operands) {o : Operand} (ho : o ∈ operands) {a : Attribute}
    (ha : a ∈ o.attributes) : a ∈ f.attributes := by
  induction h with
  | here =>
      rw [attributes, List.mem_flatMap]
      exact ⟨o, ho, ha⟩
  | allOf hmem _ ih | anyOf hmem _ ih | matchOf hmem _ ih =>
      rw [attributes, attributesAll_eq_flatMap, List.mem_flatMap]
      exact ⟨_, hmem, ih⟩
  | negation _ ih =>
      rw [attributes]
      exact ih

theorem HasComparison.isPartOf {op : Comparison} {operands : List Operand} {f : Formula}
    (h : f.HasComparison op operands) : (Formula.comparison op operands).IsPartOf f := by
  induction h with
  | here => exact .self
  | allOf hmem _ ih => exact .allOf hmem ih
  | anyOf hmem _ ih => exact .anyOf hmem ih
  | matchOf hmem _ ih => exact .matchOf hmem ih
  | negation _ ih => exact .negation ih

/-- The fields of a leaf are fields of the formula. -/
theorem HasComparison.field_mem {op : Comparison} {operands : List Operand} {f : Formula}
    (h : f.HasComparison op operands) {o : Operand} (ho : o ∈ operands) {path : String}
    (hpath : path ∈ o.fields) : path ∈ f.fields :=
  h.isPartOf.field_mem (List.mem_flatMap.mpr ⟨o, ho, hpath⟩)

/-! ## Truth from the truth of the leaves -/

mutual

/-- The truth value of a formula whose comparisons have the given ones.  A conjunction of
nothing is false, and so is every text test. -/
def truth (leaf : Comparison → List Operand → Bool) : Formula → Bool
  | .allOf parts => !parts.isEmpty && (truths leaf parts).all id
  | .matchOf parts => !parts.isEmpty && (truths leaf parts).all id
  | .anyOf parts => (truths leaf parts).any id
  | .negation part => !truth leaf part
  | .comparison op operands => leaf op operands
  | .textTest _ _ => false
  | .constant b => b

/-- The truth values of some formulas. -/
def truths (leaf : Comparison → List Operand → Bool) : List Formula → List Bool
  | [] => []
  | f :: fs => truth leaf f :: truths leaf fs

end

theorem truths_eq_map (leaf : Comparison → List Operand → Bool) (fs : List Formula) :
    truths leaf fs = fs.map (truth leaf) := by
  induction fs with
  | nil => rfl
  | cons f fs ih => rw [truths, List.map_cons, ih]

section Congruence

variable {leaf leaf' : Comparison → List Operand → Bool}

theorem truths_congr {parts : List Formula} (h : ∀ f ∈ parts, f.truth leaf = f.truth leaf') :
    truths leaf parts = truths leaf' parts := by
  rw [truths_eq_map, truths_eq_map, List.map_congr_left h]

/-- Two readings that agree on the comparisons of a formula give it the same value. -/
theorem truth_congr {f : Formula}
    (h : ∀ op operands, f.HasComparison op operands → leaf op operands = leaf' op operands) :
    f.truth leaf = f.truth leaf' := by
  induction f with
  | allOf parts ih =>
      have hparts : truths leaf parts = truths leaf' parts := truths_congr fun f hf =>
        ih f hf fun op operands ho => h op operands (.allOf hf ho)
      rw [truth, truth, hparts]
  | matchOf parts ih =>
      have hparts : truths leaf parts = truths leaf' parts := truths_congr fun f hf =>
        ih f hf fun op operands ho => h op operands (.matchOf hf ho)
      rw [truth, truth, hparts]
  | anyOf parts ih =>
      have hparts : truths leaf parts = truths leaf' parts := truths_congr fun f hf =>
        ih f hf fun op operands ho => h op operands (.anyOf hf ho)
      rw [truth, truth, hparts]
  | negation part ih =>
      rw [truth, truth, ih fun op operands ho => h op operands (.negation ho)]
  | comparison op operands => exact h op operands .here
  | textTest op operands => rfl
  | constant b => rfl

end Congruence

/-! ## Evaluation -/

theorem holdsForAll_eq_all_map (env : Environment) (fs : List Formula) :
    holdsForAll env fs = (fs.map (holds env)).all id := by
  rw [holdsForAll_eq_all, List.all_map]
  rfl

theorem holdsForSome_eq_any_map (env : Environment) (fs : List Formula) :
    holdsForSome env fs = (fs.map (holds env)).any id := by
  rw [holdsForSome_eq_any, List.any_map]
  rfl

/-- The evaluation of a formula is its truth from the tests of its comparisons. -/
theorem holds_eq_truth (env : Environment) (f : Formula) : f.holds env = f.truth env.testAll := by
  induction f with
  | allOf parts ih | matchOf parts ih =>
      rw [holds, truth, holdsForAll_eq_all_map, truths_eq_map, List.map_congr_left ih]
  | anyOf parts ih =>
      rw [holds, truth, holdsForSome_eq_any_map, truths_eq_map, List.map_congr_left ih]
  | negation part ih => rw [holds, truth, ih]
  | comparison op operands => rfl
  | textTest op operands => rfl
  | constant b => rfl

end Formula

end AssetAccess
