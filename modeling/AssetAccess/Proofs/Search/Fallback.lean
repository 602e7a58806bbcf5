import AssetAccess.Proofs.Search.Agreement
import Mathlib.Algebra.Ring.Parity
import Mathlib.Data.List.Forall2
import Mathlib.Order.BooleanAlgebra.Basic
set_option autoImplicit false

/-!
# Leaves that an index is not asked

Some leaves of a condition cannot be put to an index, and match every document instead.  Which
ones they are is written down here without clauses (`Formula.Unasked`), and what a condition
would say of a document if each of them had some truth value of its own (`Formula.value`).

Matching every document is to be read as true (`matchedBy_eq_value`).  A greater value of a leaf
makes the value of a condition greater under an even number of negations, and less under an odd
one (`value_le_of_le`).  So the search for a condition finds too much where all of these leaves
are of the first kind, and too little where all are of the second.
-/

namespace AssetAccess

/-! ## Which leaves are not asked -/

/-- Why a leaf cannot be put to an index: it has not two operands, no operand names a field,
beside the field there is no literal, or there is no script for the two fields. -/
inductive Unaskable {α β : Type} (name? : α → Option String) (literal? : α → Option β)
    (Scripted : String → String → Prop) : List α → Prop where
  | arity {operands : List α} : operands.length ≠ 2 → Unaskable name? literal? Scripted operands
  | noField {left right : α} :
      name? left = none → name? right = none → Unaskable name? literal? Scripted [left, right]
  | noLiteralBehind {left right : α} {name : String} :
      name? left = some name → name? right = none → literal? right = none →
      Unaskable name? literal? Scripted [left, right]
  | noLiteralBefore {left right : α} {name : String} :
      name? left = none → name? right = some name → literal? left = none →
      Unaskable name? literal? Scripted [left, right]
  | noScript {left right : α} {l r : String} :
      name? left = some l → name? right = some r → ¬ Scripted l r →
      Unaskable name? literal? Scripted [left, right]

/-- The names of two fields can be quoted into a script. -/
def Script.Quotable (left right : String) : Prop :=
  isQuotable (Field.keywordName left) = true ∧ isQuotable (Field.keywordName right) = true

namespace Formula

/-- The formula is a leaf that cannot be put to an index.  A connective of nothing is one, and
so are patterns between fields. -/
inductive Unasked : Formula → Prop where
  | allOf : Unasked (.allOf [])
  | anyOf : Unasked (.anyOf [])
  | matchOf : Unasked (.matchOf [])
  | comparison {op : Comparison} {operands : List Operand} :
      Unaskable Operand.indexName? Operand.literal? Script.Quotable operands →
      Unasked (.comparison op operands)
  | textTest {op : TextTest} {operands : List TextOperand} :
      Unaskable TextOperand.indexName? TextOperand.literal?
        (fun l r => op ≠ .regex ∧ Script.Quotable l r) operands →
      Unasked (.textTest op operands)

/-- Such a leaf stands in the formula under a number of negations. -/
inductive UnaskedUnder : Nat → Formula → Prop where
  | here {f : Formula} : Unasked f → UnaskedUnder 0 f
  | allOf {n : Nat} {parts : List Formula} {f : Formula} :
      f ∈ parts → UnaskedUnder n f → UnaskedUnder n (.allOf parts)
  | anyOf {n : Nat} {parts : List Formula} {f : Formula} :
      f ∈ parts → UnaskedUnder n f → UnaskedUnder n (.anyOf parts)
  | matchOf {n : Nat} {parts : List Formula} {f : Formula} :
      f ∈ parts → UnaskedUnder n f → UnaskedUnder n (.matchOf parts)
  | negation {n : Nat} {f : Formula} : UnaskedUnder n f → UnaskedUnder (n + 1) (.negation f)

end Formula

section Leaves

variable {α β : Type} {name? : α → Option String} {literal? : α → Option β}
  {Scripted : String → String → Prop} {script : α → α → String → String → Option Clause}
  {behind before : String → β → Clause}

/-- The clause of two operands, by what they name and say: that of a script, or that of a field
and the literal behind or before it. -/
def askedClause? (name? : α → Option String) (literal? : α → Option β)
    (script : α → α → String → String → Option Clause) (behind before : String → β → Clause)
    (operands : List α) : Option Clause :=
  (pair? operands).bind fun p =>
    match name? p.1, name? p.2 with
    | some l, some r => script p.1 p.2 l r
    | some field, none => (literal? p.2).map (behind field)
    | none, some field => (literal? p.1).map (before field)
    | none, none => none

/-- It is missing exactly where the leaf cannot be put to an index. -/
theorem askedClause?_eq_none_iff
    (hscript : ∀ left right l r, script left right l r = none ↔ ¬ Scripted l r)
    (operands : List α) :
    askedClause? name? literal? script behind before operands = none ↔
      Unaskable name? literal? Scripted operands := by
  constructor
  · intro h
    cases hpair : pair? operands with
    | none => exact .arity ((pair?_eq_none_iff operands).mp hpair)
    | some sides =>
        rw [askedClause?, hpair, Option.bind_some] at h
        rw [(pair?_eq_some_iff operands sides).mp hpair]
        split at h
        · rename_i hleft hright
          exact .noScript hleft hright ((hscript _ _ _ _).mp h)
        · rename_i hleft hright
          exact .noLiteralBehind hleft hright (Option.map_eq_none_iff.mp h)
        · rename_i hleft hright
          exact .noLiteralBefore hleft hright (Option.map_eq_none_iff.mp h)
        · rename_i hleft hright
          exact .noField hleft hright
  · intro h
    cases h with
    | arity hlength => rw [askedClause?, (pair?_eq_none_iff operands).mpr hlength, Option.bind_none]
    | noField hleft hright => simp [askedClause?, pair?, hleft, hright]
    | noLiteralBehind hleft hright hnone => simp [askedClause?, pair?, hleft, hright, hnone]
    | noLiteralBefore hleft hright hnone => simp [askedClause?, pair?, hleft, hright, hnone]
    | noScript hleft hright hnot =>
        simp [askedClause?, pair?, hleft, hright, (hscript _ _ _ _).mpr hnot]

/-- It is never the clause that every document matches, if its parts are not. -/
theorem askedClause?_ne_matchAll
    (hscript : ∀ left right l r, script left right l r ≠ some .matchAll)
    (hbehind : ∀ field v, behind field v ≠ .matchAll)
    (hbefore : ∀ field v, before field v ≠ .matchAll) (operands : List α) :
    askedClause? name? literal? script behind before operands ≠ some .matchAll := by
  intro h
  obtain ⟨sides, _, h⟩ := Option.bind_eq_some_iff.mp h
  split at h
  · exact hscript _ _ _ _ h
  · obtain ⟨v, _, hv⟩ := Option.map_eq_some_iff.mp h
    exact hbehind _ v hv
  · obtain ⟨v, _, hv⟩ := Option.map_eq_some_iff.mp h
    exact hbefore _ v hv
  · cases h

end Leaves

namespace Script

/-- There is a guarded script exactly where both names can be quoted. -/
theorem guarded?_eq_none_iff (left right source : String) :
    guarded? left right source = none ↔ ¬ (isQuotable left = true ∧ isQuotable right = true) := by
  rw [guarded?, ← Bool.and_eq_true]
  split <;> simp [*]

theorem guarded?_ne_matchAll (left right source : String) :
    guarded? left right source ≠ some .matchAll := by
  rw [guarded?]
  split <;> simp [Clause.allOf]

theorem comparison?_eq_none_iff (op : Comparison) (l : String) (lCast : Option CastType)
    (r : String) (rCast : Option CastType) :
    comparison? op l lCast r rCast = none ↔ ¬ Quotable l r := by
  rw [comparison?, guarded?_eq_none_iff, Quotable]

theorem textTest?_eq_none_iff (op : TextTest) (l r : String) :
    textTest? op l r = none ↔ ¬ (op ≠ .regex ∧ Quotable l r) := by
  cases op with
  | regex => simp [textTest?, method?]
  | contains | startsWith | endsWith =>
      simp only [textTest?, method?, guarded?_eq_none_iff]
      simp [Quotable]

end Script

theorem Comparison.clause?_eq (op : Comparison) (operands : List Operand) :
    op.clause? operands = askedClause? Operand.indexName? Operand.literal?
      (fun left right l r => Script.comparison? op l left.castType? r right.castType?)
      op.clause op.mirrored.clause operands := rfl

theorem Comparison.clause?_eq_none_iff (op : Comparison) (operands : List Operand) :
    op.clause? operands = none ↔
      Unaskable Operand.indexName? Operand.literal? Script.Quotable operands := by
  rw [clause?_eq]
  apply askedClause?_eq_none_iff
  intro left right l r
  exact Script.comparison?_eq_none_iff op l left.castType? r right.castType?

theorem Comparison.clause_ne_matchAll (op : Comparison) (field : String) (v : Scalar) :
    op.clause field v ≠ .matchAll := by
  cases op <;> simp [clause, Clause.negated]

theorem Comparison.clause?_ne_matchAll (op : Comparison) (operands : List Operand) :
    op.clause? operands ≠ some .matchAll := by
  rw [clause?_eq]
  apply askedClause?_ne_matchAll _ op.clause_ne_matchAll op.mirrored.clause_ne_matchAll
  intro left right l r
  exact Script.guarded?_ne_matchAll _ _ _

theorem TextTest.clause?_eq (op : TextTest) (operands : List TextOperand) :
    op.clause? operands = askedClause? TextOperand.indexName? TextOperand.literal?
      (fun _ _ l r => Script.textTest? op l r) op.clause op.clause operands := rfl

theorem TextTest.clause?_eq_none_iff (op : TextTest) (operands : List TextOperand) :
    op.clause? operands = none ↔
      Unaskable TextOperand.indexName? TextOperand.literal?
        (fun l r => op ≠ .regex ∧ Script.Quotable l r) operands := by
  rw [clause?_eq]
  apply askedClause?_eq_none_iff
  intro _ _ l r
  exact Script.textTest?_eq_none_iff op l r

theorem TextTest.clause?_ne_matchAll (op : TextTest) (operands : List TextOperand) :
    op.clause? operands ≠ some .matchAll := by
  have hclause (field value : String) : op.clause field value ≠ .matchAll := by
    cases op <;> simp [clause]
  rw [clause?_eq]
  apply askedClause?_ne_matchAll _ hclause hclause
  intro _ _ l r
  rw [Script.textTest?]
  split
  · simp
  · exact Script.guarded?_ne_matchAll _ _ _

namespace Formula

/-- A leaf cannot be put to an index exactly where its clause is the one that every document
matches.  There is one more condition with that clause: the one that is always true. -/
theorem unasked_iff (f : Formula) : f.Unasked ↔ f.compile = .matchAll ∧ f ≠ .constant true := by
  constructor
  · intro h
    cases h with
    | allOf | anyOf | matchOf => exact ⟨rfl, by simp⟩
    | comparison hoperands =>
        rw [compile, (Comparison.clause?_eq_none_iff _ _).mpr hoperands]
        exact ⟨rfl, by simp⟩
    | textTest hoperands =>
        rw [compile, (TextTest.clause?_eq_none_iff _ _).mpr hoperands]
        exact ⟨rfl, by simp⟩
  · rintro ⟨hcompile, hne⟩
    cases f with
    | allOf parts =>
        cases parts with
        | nil => exact .allOf
        | cons g parts => simp [compile, Clause.allOf] at hcompile
    | anyOf parts =>
        cases parts with
        | nil => exact .anyOf
        | cons g parts => simp [compile, Clause.anyOf] at hcompile
    | matchOf parts =>
        cases parts with
        | nil => exact .matchOf
        | cons g parts => simp [compile, Clause.allOf] at hcompile
    | negation part => simp [compile, Clause.negated] at hcompile
    | constant b =>
        cases b with
        | true => exact absurd rfl hne
        | false => simp [compile] at hcompile
    | comparison op operands =>
        refine .comparison ((op.clause?_eq_none_iff operands).mp ?_)
        cases hclause : op.clause? operands with
        | none => rfl
        | some c =>
            rw [compile, hclause, Option.getD_some] at hcompile
            rw [hcompile] at hclause
            exact absurd hclause (op.clause?_ne_matchAll operands)
    | textTest op operands =>
        refine .textTest ((op.clause?_eq_none_iff operands).mp ?_)
        cases hclause : op.clause? operands with
        | none => rfl
        | some c =>
            rw [compile, hclause, Option.getD_some] at hcompile
            rw [hcompile] at hclause
            exact absurd hclause (op.clause?_ne_matchAll operands)

/-! ## The value of a condition -/

mutual

/-- The truth value of a condition of a document.  A leaf that an index can be asked has the
answer of the index.  The others have the values that they are given, each in its place, which
is the way to it from the top of the condition, by the numbers of the parts. -/
def value (r : Reading) (given : List Nat → Bool) : Formula → Bool
  | .allOf parts => if parts.isEmpty then given [] else (values r given 0 parts).all id
  | .matchOf parts => if parts.isEmpty then given [] else (values r given 0 parts).all id
  | .anyOf parts => if parts.isEmpty then given [] else (values r given 0 parts).any id
  | .negation part => !value r (fun place => given (0 :: place)) part
  | .comparison op operands => ((op.clause? operands).map (Clause.matchedBy r)).getD (given [])
  | .textTest op operands => ((op.clause? operands).map (Clause.matchedBy r)).getD (given [])
  | .constant b => b

/-- The truth values of some parts, whose numbers begin with the given one. -/
def values (r : Reading) (given : List Nat → Bool) : Nat → List Formula → List Bool
  | _, [] => []
  | i, f :: fs => value r (fun place => given (i :: place)) f :: values r given (i + 1) fs

end

section Values

variable {r : Reading} {given given' : List Nat → Bool} {parts : List Formula}

theorem value_matchOf (r : Reading) (given : List Nat → Bool) (parts : List Formula) :
    (Formula.matchOf parts).value r given = (Formula.allOf parts).value r given := by
  rw [value, value]

/-- Where every value that is given is true, the places do not matter. -/
theorem values_true (r : Reading) (i : Nat) (parts : List Formula) :
    values r (fun _ => true) i parts = parts.map (value r fun _ => true) := by
  induction parts generalizing i with
  | nil => rfl
  | cons f parts ih => rw [values, ih, List.map_cons]

theorem allOf_matchedBy_eq_value
    (h : ∀ f ∈ parts, f.compile.matchedBy r = f.value r fun _ => true) :
    (Formula.allOf parts).compile.matchedBy r = (Formula.allOf parts).value r fun _ => true := by
  rw [value, values_true]
  by_cases hne : parts = []
  · simp [hne, compile, Clause.matchedBy]
  · rw [compile_allOf hne, Clause.matchedBy_allOf, List.map_map,
      List.isEmpty_eq_false_iff.mpr hne]
    exact congrArg (·.all id) (List.map_congr_left h)

theorem anyOf_matchedBy_eq_value
    (h : ∀ f ∈ parts, f.compile.matchedBy r = f.value r fun _ => true) :
    (Formula.anyOf parts).compile.matchedBy r = (Formula.anyOf parts).value r fun _ => true := by
  rw [value, values_true]
  by_cases hne : parts = []
  · simp [hne, compile, Clause.matchedBy]
  · rw [compile_anyOf hne, Clause.matchedBy_anyOf, List.map_map,
      List.isEmpty_eq_false_iff.mpr hne]
    exact congrArg (·.any id) (List.map_congr_left h)

/-- The clause of a leaf, if there is one, has the answer of the index, and every document
matches otherwise. -/
theorem getD_matchedBy (r : Reading) (clause? : Option Clause) :
    (clause?.getD .matchAll).matchedBy r = (clause?.map (Clause.matchedBy r)).getD true := by
  cases clause? with
  | none => rfl
  | some c => rfl

/-- To match every document is to be true. -/
theorem matchedBy_eq_value (r : Reading) (f : Formula) :
    f.compile.matchedBy r = f.value r fun _ => true := by
  induction f with
  | allOf parts ih => exact allOf_matchedBy_eq_value ih
  | matchOf parts ih =>
      rw [compile_matchOf, value_matchOf]
      exact allOf_matchedBy_eq_value ih
  | anyOf parts ih => exact anyOf_matchedBy_eq_value ih
  | negation f ih => rw [compile, Clause.matchedBy_negated, value, ih]
  | comparison op operands => rw [compile, value, getD_matchedBy]
  | textTest op operands => rw [compile, value, getD_matchedBy]
  | constant b => cases b <;> rfl

/-! ## Greater values -/

theorem all_id_le {bs bs' : List Bool} (h : List.Forall₂ (· ≤ ·) bs bs') :
    bs.all id ≤ bs'.all id := by
  induction h with
  | nil => exact le_refl _
  | cons hb _ ih => exact inf_le_inf hb ih

theorem any_id_le {bs bs' : List Bool} (h : List.Forall₂ (· ≤ ·) bs bs') :
    bs.any id ≤ bs'.any id := by
  induction h with
  | nil => exact le_refl _
  | cons hb _ ih => exact sup_le_sup hb ih

/-- The parts have greater values, wherever they stand. -/
theorem values_le
    (h : ∀ f ∈ parts, ∀ i, f.value r (fun place => given (i :: place)) ≤
      f.value r fun place => given' (i :: place)) (i : Nat) :
    List.Forall₂ (· ≤ ·) (values r given i parts) (values r given' i parts) := by
  induction parts generalizing i with
  | nil => exact .nil
  | cons f parts ih =>
      rw [List.forall_mem_cons] at h
      exact .cons (h.1 i) (ih h.2 (i + 1))

theorem allOf_value_le (hnothing : parts = [] → given [] ≤ given' [])
    (h : ∀ f ∈ parts, ∀ i, f.value r (fun place => given (i :: place)) ≤
      f.value r fun place => given' (i :: place)) :
    (Formula.allOf parts).value r given ≤ (Formula.allOf parts).value r given' := by
  rw [value, value]
  by_cases hne : parts = []
  · simpa [hne] using hnothing hne
  · rw [List.isEmpty_eq_false_iff.mpr hne]
    exact all_id_le (values_le h 0)

theorem anyOf_value_le (hnothing : parts = [] → given [] ≤ given' [])
    (h : ∀ f ∈ parts, ∀ i, f.value r (fun place => given (i :: place)) ≤
      f.value r fun place => given' (i :: place)) :
    (Formula.anyOf parts).value r given ≤ (Formula.anyOf parts).value r given' := by
  rw [value, value]
  by_cases hne : parts = []
  · simpa [hne] using hnothing hne
  · rw [List.isEmpty_eq_false_iff.mpr hne]
    exact any_id_le (values_le h 0)

/-- A leaf with a greater value, if it is given one. -/
theorem leaf_value_le {clause? : Option Clause} (h : clause? = none → given [] ≤ given' []) :
    (clause?.map (Clause.matchedBy r)).getD (given []) ≤
      (clause?.map (Clause.matchedBy r)).getD (given' []) := by
  cases clause? with
  | none => exact h rfl
  | some c => exact le_refl _

end Values

/-- All leaves that cannot be put to an index stand under an even number of negations. -/
def Widened (f : Formula) : Prop := ∀ n, f.UnaskedUnder n → Even n

/-- All leaves that cannot be put to an index stand under an odd number of negations. -/
def Narrowed (f : Formula) : Prop := ∀ n, f.UnaskedUnder n → Odd n

theorem Unasked.not_narrowed {f : Formula} (h : f.Unasked) : ¬ f.Narrowed := fun hodd =>
  absurd (hodd 0 (.here h)) (by decide)

theorem Widened.of_negation {f : Formula} (h : (Formula.negation f).Widened) : f.Narrowed := by
  intro n hn
  rw [← Nat.not_even_iff_odd, ← Nat.even_add_one]
  exact h (n + 1) (.negation hn)

theorem Narrowed.of_negation {f : Formula} (h : (Formula.negation f).Narrowed) : f.Widened := by
  intro n hn
  rw [← Nat.not_odd_iff_even, ← Nat.odd_add_one]
  exact h (n + 1) (.negation hn)

/-- Greater values of the leaves that cannot be put to an index make the value of a condition
greater, if they are all under an even number of negations, and less, if all are under an odd
one. -/
theorem value_le_of_le (r : Reading) (f : Formula) {given given' : List Nat → Bool}
    (h : ∀ place, given place ≤ given' place) :
    (f.Widened → f.value r given ≤ f.value r given') ∧
      (f.Narrowed → f.value r given' ≤ f.value r given) := by
  induction f generalizing given given' with
  | allOf parts ih =>
      constructor
      · intro heven
        refine allOf_value_le (fun _ => h []) fun f hf i => ?_
        exact (ih f hf fun place => h (i :: place)).1 fun n hn => heven n (.allOf hf hn)
      · intro hodd
        refine allOf_value_le (fun hnil => ?_) fun f hf i => ?_
        · rw [hnil] at hodd
          exact absurd hodd Unasked.allOf.not_narrowed
        · exact (ih f hf fun place => h (i :: place)).2 fun n hn => hodd n (.allOf hf hn)
  | matchOf parts ih =>
      rw [value_matchOf, value_matchOf]
      constructor
      · intro heven
        refine allOf_value_le (fun _ => h []) fun f hf i => ?_
        exact (ih f hf fun place => h (i :: place)).1 fun n hn => heven n (.matchOf hf hn)
      · intro hodd
        refine allOf_value_le (fun hnil => ?_) fun f hf i => ?_
        · rw [hnil] at hodd
          exact absurd hodd Unasked.matchOf.not_narrowed
        · exact (ih f hf fun place => h (i :: place)).2 fun n hn => hodd n (.matchOf hf hn)
  | anyOf parts ih =>
      constructor
      · intro heven
        refine anyOf_value_le (fun _ => h []) fun f hf i => ?_
        exact (ih f hf fun place => h (i :: place)).1 fun n hn => heven n (.anyOf hf hn)
      · intro hodd
        refine anyOf_value_le (fun hnil => ?_) fun f hf i => ?_
        · rw [hnil] at hodd
          exact absurd hodd Unasked.anyOf.not_narrowed
        · exact (ih f hf fun place => h (i :: place)).2 fun n hn => hodd n (.anyOf hf hn)
  | negation f ih =>
      rw [value, value]
      obtain ⟨hwidened, hnarrowed⟩ := ih fun place => h (0 :: place)
      exact ⟨fun heven => compl_le_compl (hnarrowed heven.of_negation),
        fun hodd => compl_le_compl (hwidened hodd.of_negation)⟩
  | comparison op operands =>
      rw [value, value]
      refine ⟨fun _ => leaf_value_le fun _ => h [], fun hodd => leaf_value_le fun hnone => ?_⟩
      rw [Comparison.clause?_eq_none_iff] at hnone
      exact absurd hodd (Unasked.comparison hnone).not_narrowed
  | textTest op operands =>
      rw [value, value]
      refine ⟨fun _ => leaf_value_le fun _ => h [], fun hodd => leaf_value_le fun hnone => ?_⟩
      rw [TextTest.clause?_eq_none_iff] at hnone
      exact absurd hodd (Unasked.textTest hnone).not_narrowed
  | constant b => exact ⟨fun _ => le_refl _, fun _ => le_refl _⟩

/-- A condition has no greater value than where every leaf that cannot be put to an index is
true, if they are all under an even number of negations, and no smaller one, if all are under an
odd one. -/
theorem value_le_matchedBy (r : Reading) (f : Formula) (given : List Nat → Bool) :
    (f.Widened → f.value r given ≤ f.compile.matchedBy r) ∧
      (f.Narrowed → f.compile.matchedBy r ≤ f.value r given) := by
  rw [matchedBy_eq_value]
  exact value_le_of_le r f fun _ => le_top

end Formula

/-- In which direction a search is wrong for the leaves of its condition that an index cannot be
asked.  These leaves are the ones with the clause that every document matches.  Let each of them
have any truth value, wherever it stands.  If all are under an even number of negations, the
search finds every document of which the condition is true, and maybe others.  If all are under
an odd one, the condition is true of every document that is found, and maybe of others.  If
there are none, the search finds the documents of which the condition is true. -/
theorem fallback_directed (r : Reading) (f : Formula) (given : List Nat → Bool) :
    (∀ g : Formula, g.Unasked ↔ g.compile = .matchAll ∧ g ≠ .constant true) ∧
    (f.Widened → f.value r given = true → f.compile.matchedBy r = true) ∧
    (f.Narrowed → f.compile.matchedBy r = true → f.value r given = true) ∧
    ((∀ n, ¬ f.UnaskedUnder n) → (f.compile.matchedBy r = true ↔ f.value r given = true)) := by
  obtain ⟨hwidened, hnarrowed⟩ := f.value_le_matchedBy r given
  refine ⟨Formula.unasked_iff, fun h => hwidened h, fun h => hnarrowed h, ?_⟩
  intro hnone
  constructor
  · exact hnarrowed fun n hn => absurd hn (hnone n)
  · exact hwidened fun n hn => absurd hn (hnone n)

/-! ## A motor of some department -/

/-- The name of a motor, which an index is asked for. -/
def namedMotor : Formula := .comparison .eq [.field "$aas#idShort", .text "Motor1"]

/-- The motor is not of the department of the subject, which no index knows. -/
def foreignMotor : Formula :=
  .allOf [namedMotor, .comparison .ne [.field "$cd#category", .attribute (.claim "department")]]

/-- Of the places in a condition, the one of its second part. -/
def secondPart (place : List Nat) : Bool := decide (place = [1])

/-- Let the motor be foreign.  Then a search for foreign motors of its name finds it, for the
condition is true of it.  A search for everything else finds a document without a name, and so
this is something else.  A search for the name alone finds the motor, whatever it belongs to. -/
theorem foreign_motor_found :
    (foreignMotor.Widened ∧
      foreignMotor.value (.ofDocument motorDocument) secondPart = true ∧
      foreignMotor.compile.matchedBy (.ofDocument motorDocument) = true) ∧
    ((Formula.negation foreignMotor).Narrowed ∧
      (Formula.negation foreignMotor).compile.matchedBy (.ofDocument fun _ => none) = true ∧
      (Formula.negation foreignMotor).value (.ofDocument fun _ => none) secondPart = true) ∧
    ((∀ n, ¬ namedMotor.UnaskedUnder n) ∧
      namedMotor.value (.ofDocument motorDocument) secondPart = true) := by
  have hclause : namedMotor.compile = .term "idShort.keyword" (.text "Motor1") :=
    compile_comparison_field_text rfl .eq "Motor1"
  have hnamed : ∀ n, ¬ namedMotor.UnaskedUnder n := by
    intro n hn
    cases hn with
    | here h =>
        rw [Formula.unasked_iff, hclause] at h
        cases h.1
  have hwidened : foreignMotor.Widened := by
    intro n hn
    cases hn with
    | here h => cases h
    | allOf hf hn =>
        rw [List.mem_cons, List.mem_singleton] at hf
        rcases hf with rfl | rfl
        · exact absurd hn (hnamed n)
        · cases hn
          exact Even.zero
  have hnarrowed : (Formula.negation foreignMotor).Narrowed := by
    intro n hn
    cases hn with
    | here h => cases h
    | negation hn => exact (hwidened _ hn).add_one
  have htrue : foreignMotor.value (.ofDocument motorDocument) secondPart = true := by
    decide +kernel
  have hfound : (Formula.negation foreignMotor).compile.matchedBy (.ofDocument fun _ => none) =
      true := rfl
  have hmotor : namedMotor.compile.matchedBy (.ofDocument motorDocument) = true := rfl
  obtain ⟨_, hforeign, _, _⟩ :=
    fallback_directed (.ofDocument motorDocument) foreignMotor secondPart
  obtain ⟨_, _, hother, _⟩ :=
    fallback_directed (.ofDocument fun _ => none) (.negation foreignMotor) secondPart
  obtain ⟨_, _, _, hexact⟩ :=
    fallback_directed (.ofDocument motorDocument) namedMotor secondPart
  exact ⟨⟨hwidened, htrue, hforeign hwidened htrue⟩, ⟨hnarrowed, hfound, hother hnarrowed hfound⟩,
    ⟨hnamed, (hexact hnamed).mp hmotor⟩⟩

end AssetAccess
