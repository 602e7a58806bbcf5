import AssetAccess.Proofs.Formula.Leaves
import AssetAccess.Search.Compile
set_option autoImplicit false

/-!
# The clauses inside a clause

A combination holds clauses, which may be combinations themselves.  What stands anywhere
in the clause of a formula is one of three things: the clause of a constant or of an empty
connective, the combination that stands for a connective and holds the clauses of its
parts, or something in the clause of a leaf (`Formula.forall_occurs_compile`).  So what is
said of every clause of a compiled formula is proved leaf by leaf.
-/

namespace AssetAccess

namespace Clause

/-- The clauses that a combination holds. -/
def children : Clause → List Clause
  | .combined must should mustNot _ => must ++ should ++ mustNot
  | _ => []

@[simp] theorem children_allOf (cs : List Clause) : (allOf cs).children = cs := by
  simp [allOf, children]

@[simp] theorem children_anyOf (cs : List Clause) : (anyOf cs).children = cs := by
  simp [anyOf, children]

@[simp] theorem children_negated (c : Clause) : (negated c).children = [c] := by
  simp [negated, children]

theorem sizeOf_lt_of_mem_children {c child : Clause} (h : child ∈ c.children) :
    sizeOf child < sizeOf c := by
  cases c with
  | combined must should mustNot minimum =>
      rw [children, List.mem_append, List.mem_append] at h
      rw [combined.sizeOf_spec]
      rcases h with (h | h) | h
      all_goals
        have hlt := List.sizeOf_lt_of_mem h
        omega
  | _ => exact absurd h List.not_mem_nil

/-- What holds of a clause whenever it holds of the clauses that it holds, holds of every
clause. -/
@[elab_as_elim, induction_eliminator]
theorem induction {motive : Clause → Prop}
    (step : ∀ c, (∀ child ∈ c.children, motive child) → motive c) (c : Clause) : motive c :=
  step c fun child hchild =>
    have := sizeOf_lt_of_mem_children hchild
    induction step child
termination_by sizeOf c

/-- The clause stands in another one, at any depth; it stands in itself. -/
inductive Occurs (part : Clause) : Clause → Prop where
  | here : Occurs part part
  | inside {c child : Clause} : child ∈ c.children → Occurs part child → Occurs part c

theorem occurs_iff (part c : Clause) :
    part.Occurs c ↔ part = c ∨ ∃ child ∈ c.children, part.Occurs child := by
  constructor
  · intro h
    cases h with
    | here => exact .inl rfl
    | inside hchild hpart => exact .inr ⟨_, hchild, hpart⟩
  · rintro (rfl | ⟨child, hchild, hpart⟩)
    · exact .here
    · exact .inside hchild hpart

/-- Only the clause itself stands in a clause that holds none. -/
theorem eq_of_occurs {part c : Clause} (hnone : c.children = []) (h : part.Occurs c) :
    part = c := by
  rw [occurs_iff, hnone] at h
  rcases h with heq | ⟨child, hchild, _⟩
  · exact heq
  · exact absurd hchild List.not_mem_nil

end Clause

namespace Formula

/-- The clause is that of a leaf of the formula. -/
inductive LeafClause (f : Formula) (c : Clause) : Prop where
  | comparison {op : Comparison} {left right : Operand} :
      (Formula.comparison op [left, right]).IsPartOf f → op.clauseOf? left right = some c →
      LeafClause f c
  | textTest {op : TextTest} {left right : TextOperand} :
      (Formula.textTest op [left, right]).IsPartOf f → op.clauseOf? left right = some c →
      LeafClause f c

/-- The leaves of the parts of a formula are leaves of it. -/
theorem LeafClause.lift {f g : Formula} {c : Clause} (h : f.LeafClause c)
    (hparts : ∀ part : Formula, part.IsPartOf f → part.IsPartOf g) : g.LeafClause c := by
  cases h with
  | comparison hpart hclause => exact .comparison (hparts _ hpart) hclause
  | textTest hpart hclause => exact .textTest (hparts _ hpart) hclause

/-- A leaf is compiled into its clause, or into the one that every document matches. -/
theorem compile_comparison_cases (op : Comparison) (operands : List Operand) :
    (Formula.comparison op operands).compile = .matchAll ∨
      (Formula.comparison op operands).LeafClause (Formula.comparison op operands).compile := by
  rw [compile, Comparison.clause?]
  cases hpair : pair? operands with
  | none => exact .inl rfl
  | some sides =>
      have hoperands := (pair?_eq_some_iff operands sides).mp hpair
      rw [Option.bind_some, hoperands]
      cases hclause : op.clauseOf? sides.1 sides.2 with
      | none => exact .inl rfl
      | some c => exact .inr (.comparison .self hclause)

theorem compile_textTest_cases (op : TextTest) (operands : List TextOperand) :
    (Formula.textTest op operands).compile = .matchAll ∨
      (Formula.textTest op operands).LeafClause (Formula.textTest op operands).compile := by
  rw [compile, TextTest.clause?]
  cases hpair : pair? operands with
  | none => exact .inl rfl
  | some sides =>
      have hoperands := (pair?_eq_some_iff operands sides).mp hpair
      rw [Option.bind_some, hoperands]
      cases hclause : op.clauseOf? sides.1 sides.2 with
      | none => exact .inl rfl
      | some c => exact .inr (.textTest .self hclause)

section Occurrences

variable {P : Clause → Prop}

/-- What holds of a combination, and of all that stands in the clauses that it holds, holds
of all that stands in the combination. -/
theorem forall_occurs_of_children {c : Clause} (hself : P c)
    (hchildren : ∀ child ∈ c.children, ∀ part, Clause.Occurs part child → P part) :
    ∀ part, Clause.Occurs part c → P part := by
  intro part hpart
  rcases (Clause.occurs_iff part c).mp hpart with rfl | ⟨child, hchild, hinside⟩
  · exact hself
  · exact hchildren child hchild part hinside

/-- What holds of the clauses of constants and connectives, and of all that stands in the
clauses of the leaves, holds of all that stands in the clause of a formula. -/
theorem forall_occurs_compile (matchAll : P .matchAll) (matchNone : P .matchNone)
    (allOf : ∀ parts, parts ≠ [] → P (Clause.allOf (parts.map compile)))
    (anyOf : ∀ parts, parts ≠ [] → P (Clause.anyOf (parts.map compile)))
    (negated : ∀ f, P (Clause.negated (compile f))) (f : Formula)
    (leaf : ∀ c, f.LeafClause c → ∀ part, Clause.Occurs part c → P part) :
    ∀ part, Clause.Occurs part f.compile → P part := by
  have hmatchAll : ∀ part, Clause.Occurs part .matchAll → P part := fun part hpart =>
    Clause.eq_of_occurs rfl hpart ▸ matchAll
  have hmatchNone : ∀ part, Clause.Occurs part .matchNone → P part := fun part hpart =>
    Clause.eq_of_occurs rfl hpart ▸ matchNone
  induction f with
  | allOf parts ih =>
      by_cases hne : parts = []
      · rw [hne]
        exact hmatchAll
      · rw [compile_allOf hne]
        apply forall_occurs_of_children (allOf parts hne)
        rw [Clause.children_allOf, List.forall_mem_map]
        exact fun g hg => ih g hg fun c hc => leaf c (hc.lift fun _ => .allOf hg)
  | matchOf parts ih =>
      rw [compile_matchOf]
      by_cases hne : parts = []
      · rw [hne]
        exact hmatchAll
      · rw [compile_allOf hne]
        apply forall_occurs_of_children (allOf parts hne)
        rw [Clause.children_allOf, List.forall_mem_map]
        exact fun g hg => ih g hg fun c hc => leaf c (hc.lift fun _ => .matchOf hg)
  | anyOf parts ih =>
      by_cases hne : parts = []
      · rw [hne]
        exact hmatchAll
      · rw [compile_anyOf hne]
        apply forall_occurs_of_children (anyOf parts hne)
        rw [Clause.children_anyOf, List.forall_mem_map]
        exact fun g hg => ih g hg fun c hc => leaf c (hc.lift fun _ => .anyOf hg)
  | negation g ih =>
      rw [compile]
      apply forall_occurs_of_children (negated g)
      rw [Clause.children_negated, List.forall_mem_singleton]
      exact ih fun c hc => leaf c (hc.lift fun _ => .negation)
  | comparison op operands =>
      rcases compile_comparison_cases op operands with hnothing | hclause
      · rw [hnothing]
        exact hmatchAll
      · exact leaf _ hclause
  | textTest op operands =>
      rcases compile_textTest_cases op operands with hnothing | hclause
      · rw [hnothing]
        exact hmatchAll
      · exact leaf _ hclause
  | constant b =>
      cases b with
      | true => exact hmatchAll
      | false => exact hmatchNone

end Occurrences

end Formula

end AssetAccess
