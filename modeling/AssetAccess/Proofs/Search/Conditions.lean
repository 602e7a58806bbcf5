import AssetAccess.Proofs.Formula.Leaves
import AssetAccess.Proofs.Search.Matching
import AssetAccess.Proofs.Search.Patterns
import AssetAccess.Search.Compile
set_option autoImplicit false

/-!
# What a condition asks of a document

The meaning of a condition is given here without clauses.  A comparison relates what its two
sides stand for, in the order in which they are written: a field stands for what the document
has under it, under however many casts, and a literal for itself.  A condition that a document
cannot be asked holds of every document.

The clause of a condition matches a document exactly when the condition holds of it
(`found_iff_holdsIn`).  Where the literal stands on the left the clause is that of the
mirrored comparison, which is the same relation read from the other side.
-/

namespace AssetAccess

/-! ## Documents in an index -/

/-- How an index compares scalars: a total preorder for ranges, and an equality for terms. -/
structure ScalarOrder where
  le : Scalar → Scalar → Bool
  le_total : ∀ a b, le a b = true ∨ le b a = true
  le_trans : ∀ {a b c}, le a b = true → le b c = true → le a c = true
  same : Scalar → Scalar → Bool
  same_refl : ∀ a, same a a = true
  same_symm : ∀ {a b}, same a b = true → same b a = true
  same_trans : ∀ {a b c}, same a b = true → same b c = true → same a c = true

namespace ScalarOrder

/-- Scalars compare as the numbers that they are given. -/
def ofRank (rank : Scalar → Nat) : ScalarOrder where
  le a b := decide (rank a ≤ rank b)
  le_total a b := by
    rw [decide_eq_true_iff, decide_eq_true_iff]
    exact Nat.le_total _ _
  le_trans hab hbc := decide_eq_true (Nat.le_trans (of_decide_eq_true hab) (of_decide_eq_true hbc))
  same a b := decide (rank a = rank b)
  same_refl _ := decide_eq_true rfl
  same_symm hab := decide_eq_true (of_decide_eq_true hab).symm
  same_trans hab hbc := decide_eq_true ((of_decide_eq_true hab).trans (of_decide_eq_true hbc))

instance : Inhabited ScalarOrder := ⟨ofRank fun s => s.display.length⟩

variable (order : ScalarOrder)

/-- The first scalar stands before the second, and not beside it. -/
def lt (a b : Scalar) : Bool := order.le a b && !order.le b a

theorem lt_eq_not_le (a b : Scalar) : order.lt a b = !order.le b a := by
  cases hba : order.le b a with
  | true => simp [lt, hba]
  | false =>
      have hab : order.le a b = true := by
        rcases order.le_total a b with h | h
        · exact h
        · rw [hba] at h
          cases h
      simp [lt, hba, hab]

theorem same_comm (a b : Scalar) : order.same a b = order.same b a := by
  rw [Bool.eq_iff_iff]
  exact ⟨order.same_symm, order.same_symm⟩

/-- A scalar lies beyond the end of a range. -/
def beyond (bound : Bound) (value s : Scalar) : Bool :=
  match bound with
  | .gt => !order.le s value
  | .gte => order.le value s
  | .lt => !order.le value s
  | .lte => order.le s value

end ScalarOrder

/-- A document in an index: what it has under each field, how the index compares that, and how
it answers to patterns and scripts. -/
structure IndexedDocument where
  order : ScalarOrder
  field? : String → Option Scalar
  wildcard : String → String → Bool
  regexp : String → String → Bool
  script : String → Bool

namespace IndexedDocument

/-- The answers of the index.  A term and a range match no field that is not there. -/
def reading (d : IndexedDocument) : Reading where
  term field value := (d.field? field).any fun s => d.order.same s value
  range field bound value := (d.field? field).any fun s => d.order.beyond bound value s
  wildcard := d.wildcard
  regexp := d.regexp
  present field := (d.field? field).isSome
  script := d.script

/-- Two values are there and are related. -/
def Both (r : Scalar → Scalar → Bool) (a b : Option Scalar) : Prop :=
  ∃ x ∈ a, ∃ y ∈ b, r x y = true

/-- The comparison of two values, in the order in which they are written.  Nothing compares
with a value that is not there, so that it is not equal to any. -/
def Compares (d : IndexedDocument) : Comparison → Option Scalar → Option Scalar → Prop
  | .eq, a, b => Both d.order.same a b
  | .ne, a, b => ¬ Both d.order.same a b
  | .lt, a, b => Both d.order.lt a b
  | .le, a, b => Both d.order.le a b
  | .gt, a, b => Both d.order.lt b a
  | .ge, a, b => Both d.order.le b a

theorem both_comm {r : Scalar → Scalar → Bool} (hr : ∀ x y, r x y = r y x)
    (a b : Option Scalar) : Both r a b ↔ Both r b a := by
  constructor <;> rintro ⟨x, hx, y, hy, hxy⟩
  · exact ⟨y, hy, x, hx, hr y x ▸ hxy⟩
  · exact ⟨y, hy, x, hx, hr y x ▸ hxy⟩

/-- The mirrored comparison is the same relation, read from the other side. -/
theorem compares_mirrored (d : IndexedDocument) (op : Comparison) (a b : Option Scalar) :
    d.Compares op.mirrored a b ↔ d.Compares op b a := by
  have hsame := both_comm d.order.same_comm a b
  cases op with
  | eq => exact hsame
  | ne => exact not_congr hsame
  | le | lt | ge | gt => exact Iff.rfl

theorem both_some_right_iff (r : Scalar → Scalar → Bool) (a : Option Scalar) (value : Scalar) :
    Both r a (some value) ↔ (a.any fun s => r s value) = true := by
  cases a with
  | none => simp [Both]
  | some s => simp [Both]

theorem both_some_left_iff (r : Scalar → Scalar → Bool) (value : Scalar) (b : Option Scalar) :
    Both r (some value) b ↔ (b.any fun s => r value s) = true := by
  cases b with
  | none => simp [Both]
  | some s => simp [Both]

/-- The clause that compares a field with a literal matches where the field does compare so. -/
theorem clause_matchedBy_iff (d : IndexedDocument) (op : Comparison) (field : String)
    (value : Scalar) :
    (op.clause field value).matchedBy d.reading = true ↔
      d.Compares op (d.field? field) (some value) := by
  have hterm : d.reading.term field value = true ↔
      Both d.order.same (d.field? field) (some value) :=
    (both_some_right_iff _ _ _).symm
  cases op with
  | eq => exact hterm
  | ne =>
      rw [Comparison.clause, Clause.matchedBy_negated, Clause.matchedBy, Bool.not_eq_true',
        ← Bool.not_eq_true, hterm]
      rfl
  | le => exact (both_some_right_iff _ _ _).symm
  | ge => exact (both_some_left_iff _ _ _).symm
  | lt =>
      rw [Compares, both_some_right_iff]
      simp only [d.order.lt_eq_not_le]
      rfl
  | gt =>
      rw [Compares, both_some_left_iff]
      simp only [d.order.lt_eq_not_le]
      rfl

end IndexedDocument

/-! ## What an operand stands for -/

/-- What one side of a leaf stands for: the field under a name of the index, a literal, or
nothing that an index knows. -/
inductive Side (α : Type) where
  | field (name : String)
  | literal (v : α)
  | nothing

namespace Side

variable {α β : Type}

/-- The field under a name, if there is a name. -/
def ofName : Option String → Side α
  | some name => .field name
  | none => .nothing

/-- The literal, if there is one. -/
def ofLiteral : Option α → Side α
  | some v => .literal v
  | none => .nothing

/-- The same side with its literal changed. -/
def map (f : α → β) : Side α → Side β
  | .field name => .field name
  | .literal v => .literal (f v)
  | .nothing => .nothing

/-- The name of the field. -/
def name? : Side α → Option String
  | .field name => some name
  | _ => none

/-- The literal. -/
def literal? : Side α → Option α
  | .literal v => some v
  | _ => none

@[simp] theorem name?_ofName (n : Option String) : (ofName n : Side α).name? = n := by
  cases n <;> rfl

@[simp] theorem literal?_ofName (n : Option String) : (ofName n : Side α).literal? = none := by
  cases n <;> rfl

@[simp] theorem name?_ofLiteral (v : Option α) : (ofLiteral v).name? = none := by
  cases v <;> rfl

@[simp] theorem literal?_ofLiteral (v : Option α) : (ofLiteral v).literal? = v := by
  cases v <;> rfl

@[simp] theorem name?_map (f : α → β) (s : Side α) : (s.map f).name? = s.name? := by
  cases s <;> rfl

@[simp] theorem literal?_map (f : α → β) (s : Side α) :
    (s.map f).literal? = s.literal?.map f := by
  cases s <;> rfl

/-- A literal is no field. -/
theorem name?_of_literal? {s : Side α} {v : α} (h : s.literal? = some v) : s.name? = none := by
  cases s with
  | literal v => rfl
  | field name => cases h
  | nothing => cases h

end Side

namespace Operand

/-- The operand without the casts around it. -/
def bare : Operand → Operand
  | .cast _ o => bare o
  | o => o

/-- An operand stands for the field that is under its casts; where none is, for its literal,
to which the casts belong. -/
def side (o : Operand) : Side Scalar :=
  match o.bare with
  | .field path => .ofName (Field.indexName? path)
  | _ => .ofLiteral o.literal?

/-- A field denotes no timestamp, whatever it is cast to. -/
theorem dateTime?_of_bare_field {o : Operand} {path : String} (h : o.bare = .field path) :
    o.dateTime? = none := by
  induction o with
  | cast c o ih =>
      cases c with
      | dateTime => exact ih h
      | text | number | boolean | hex | time => rfl
  | field path' => rfl
  | _ => cases h

/-- Nor is it a literal. -/
theorem literal?_of_bare_field {o : Operand} {path : String} (h : o.bare = .field path) :
    o.literal? = none := by
  induction o with
  | cast c o ih =>
      have hbare : o.bare = .field path := h
      have hliteral := ih hbare
      cases c with
      | dateTime =>
          have hdate := dateTime?_of_bare_field hbare
          rw [literal?, hdate, hliteral]
          rfl
      | text | number | boolean | hex | time =>
          rw [literal?, hliteral]
          rfl
  | field path' => rfl
  | _ => cases h

theorem indexName?_eq_bare (o : Operand) : o.indexName? = o.bare.indexName? := by
  induction o with
  | cast c o ih => exact ih
  | _ => rfl

theorem bare_ne_cast (o : Operand) (c : CastType) (o' : Operand) : o.bare ≠ .cast c o' := by
  induction o with
  | cast _ o ih => exact ih
  | _ =>
      intro h
      cases h

/-- The field that an operand names is the one that it stands for. -/
theorem name?_side (o : Operand) : o.side.name? = o.indexName? := by
  rw [indexName?_eq_bare, side]
  cases hbare : o.bare with
  | field path => exact Side.name?_ofName _
  | cast c o' => exact absurd hbare (bare_ne_cast o c o')
  | _ => exact Side.name?_ofLiteral _

/-- The literal of an operand is the one that it stands for. -/
theorem literal?_side (o : Operand) : o.side.literal? = o.literal? := by
  rw [side]
  cases hbare : o.bare with
  | field path =>
      rw [literal?_of_bare_field hbare]
      exact Side.literal?_ofName _
  | _ => exact Side.literal?_ofLiteral _

/-- A literal names no field. -/
theorem indexName?_of_literal? {o : Operand} {v : Scalar} (h : o.literal? = some v) :
    o.indexName? = none := by
  rw [← o.literal?_side] at h
  rw [← o.name?_side, Side.name?_of_literal? h]

end Operand

namespace TextOperand

/-- What an operand of a text test stands for.  The literal under a cast is taken as a text. -/
def side : TextOperand → Side String
  | .field path => .ofName (Field.indexName? path)
  | .text s => .literal s
  | .attribute _ => .nothing
  | .cast o => o.side.map Scalar.display

theorem name?_side (o : TextOperand) : o.side.name? = o.indexName? := by
  cases o with
  | field path => exact Side.name?_ofName _
  | text s => rfl
  | «attribute» a => rfl
  | cast o => rw [side, Side.name?_map, o.name?_side, indexName?]

theorem literal?_side (o : TextOperand) : o.side.literal? = o.literal? := by
  cases o with
  | field path => exact Side.literal?_ofName _
  | text s => rfl
  | «attribute» a => rfl
  | cast o => rw [side, Side.literal?_map, o.literal?_side, literal?]

/-- A literal names no field. -/
theorem indexName?_of_literal? {o : TextOperand} {value : String}
    (h : o.literal? = some value) : o.indexName? = none := by
  rw [← o.literal?_side] at h
  rw [← o.name?_side, Side.name?_of_literal? h]

end TextOperand

/-! ## A field and a literal -/

namespace Comparison

variable {field literal : Operand} {name : String} {v : Scalar}

/-- A field in front of a literal is compared by the clause of the comparison. -/
theorem compile_field_literal (op : Comparison) (hname : field.indexName? = some name)
    (hvalue : literal.literal? = some v) :
    (Formula.comparison op [field, literal]).compile = op.clause name v := by
  have hliteral := Operand.indexName?_of_literal? hvalue
  simp [Formula.compile, clause?, pair?, clauseOf?, hname, hvalue, hliteral]

/-- A field behind a literal is compared by the clause of the mirrored comparison. -/
theorem compile_literal_field (op : Comparison) (hname : field.indexName? = some name)
    (hvalue : literal.literal? = some v) :
    (Formula.comparison op [literal, field]).compile = op.mirrored.clause name v := by
  have hliteral := Operand.indexName?_of_literal? hvalue
  simp [Formula.compile, clause?, pair?, clauseOf?, hname, hvalue, hliteral]

end Comparison

namespace TextTest

variable {field literal : TextOperand} {name value : String}

/-- A field in front of a literal is tested by the clause of the test. -/
theorem compile_field_literal (op : TextTest) (hname : field.indexName? = some name)
    (hvalue : literal.literal? = some value) :
    (Formula.textTest op [field, literal]).compile = op.clause name value := by
  have hliteral := TextOperand.indexName?_of_literal? hvalue
  simp [Formula.compile, clause?, pair?, clauseOf?, hname, hvalue, hliteral]

/-- And so is a field behind a literal. -/
theorem compile_literal_field (op : TextTest) (hname : field.indexName? = some name)
    (hvalue : literal.literal? = some value) :
    (Formula.textTest op [literal, field]).compile = op.clause name value := by
  have hliteral := TextOperand.indexName?_of_literal? hvalue
  simp [Formula.compile, clause?, pair?, clauseOf?, hname, hvalue, hliteral]

end TextTest

/-! ## The meaning of a condition -/

/-- A script over two fields, if their names can be quoted, finds both in the document and is
true of it. -/
def IndexedDocument.Runs (d : IndexedDocument) (left right source : String) : Prop :=
  Script.isQuotable left = true → Script.isQuotable right = true →
    (d.field? left).isSome = true ∧ (d.field? right).isSome = true ∧ d.script source = true

/-- The document is found by the pattern that a test makes of a text, under the name of a field.
For a regular expression, the pattern is what stands between its caret and its dollar sign, where
it has both. -/
def IndexedDocument.Tests (d : IndexedDocument) : TextTest → String → String → Prop
  | .contains, name, s => d.wildcard name ("*" ++ Wildcard.literally s ++ "*") = true
  | .startsWith, name, s => d.wildcard name (Wildcard.literally s ++ "*") = true
  | .endsWith, name, s => d.wildcard name ("*" ++ Wildcard.literally s) = true
  | .regex, name, s =>
    ∃ pattern : String, Regexp.Unwrapped s.toList pattern.toList ∧ d.regexp name pattern = true

/-- A script that calls a method of the text in one field on the text in another one finds both
in the document and is true of it. -/
def IndexedDocument.Calls (d : IndexedDocument) (left method right : String) : Prop :=
  d.Runs (Field.keywordName left) (Field.keywordName right)
    (Script.fieldValue (Field.keywordName left) ++ "." ++ method ++ "(" ++
      Script.fieldValue (Field.keywordName right) ++ ")")

/-- The test of the text in one field for that in another one.  No field is taken for a regular
expression, so that any document passes. -/
def IndexedDocument.TestsFields (d : IndexedDocument) : TextTest → String → String → Prop
  | .contains, left, right => d.Calls left "contains" right
  | .startsWith, left, right => d.Calls left "startsWith" right
  | .endsWith, left, right => d.Calls left "endsWith" right
  | .regex, _, _ => True

/-- The comparison of two operands holds of a document: the values on its two sides compare.
Two fields are compared by a script.  What cannot be asked holds. -/
def Comparison.HoldsIn (d : IndexedDocument) (op : Comparison) (left right : Operand) : Prop :=
  match left.side, right.side with
  | .field name, .literal v => d.Compares op (d.field? name) (some v)
  | .literal v, .field name => d.Compares op (some v) (d.field? name)
  | .field l, .field r =>
    d.Runs (Field.keywordName l) (Field.keywordName r)
      (Script.castValue (Field.keywordName l) left.castType? ++ " " ++ Script.operator op ++
        " " ++ Script.castValue (Field.keywordName r) right.castType?)
  | _, _ => True

/-- The test of two text operands holds of a document: the field matches the pattern of the
literal, whichever side it stands on.  Two fields are tested by a script.  What cannot be asked
holds. -/
def TextTest.HoldsIn (d : IndexedDocument) (op : TextTest) (left right : TextOperand) : Prop :=
  match left.side, right.side with
  | .field name, .literal s => d.Tests op name s
  | .literal s, .field name => d.Tests op name s
  | .field l, .field r => d.TestsFields op l r
  | _, _ => True

namespace Formula

mutual

/-- The condition holds of a document.  A leaf with any other number of operands than two
cannot be asked, nor can a disjunction of nothing, and so they hold. -/
def HoldsIn (d : IndexedDocument) : Formula → Prop
  | .allOf parts => EachHoldsIn d parts
  | .matchOf parts => EachHoldsIn d parts
  | .anyOf parts => parts = [] ∨ SomeHoldsIn d parts
  | .negation part => ¬ HoldsIn d part
  | .constant b => b = true
  | .comparison op operands =>
    ∀ left right, operands = [left, right] → op.HoldsIn d left right
  | .textTest op operands =>
    ∀ left right, operands = [left, right] → op.HoldsIn d left right

/-- Each of some conditions holds. -/
def EachHoldsIn (d : IndexedDocument) : List Formula → Prop
  | [] => True
  | f :: fs => HoldsIn d f ∧ EachHoldsIn d fs

/-- Some of the conditions hold. -/
def SomeHoldsIn (d : IndexedDocument) : List Formula → Prop
  | [] => False
  | f :: fs => HoldsIn d f ∨ SomeHoldsIn d fs

end

theorem eachHoldsIn_iff (d : IndexedDocument) (fs : List Formula) :
    EachHoldsIn d fs ↔ ∀ f ∈ fs, f.HoldsIn d := by
  induction fs with
  | nil => simp [EachHoldsIn]
  | cons f fs ih => rw [EachHoldsIn, ih, List.forall_mem_cons]

theorem someHoldsIn_iff (d : IndexedDocument) (fs : List Formula) :
    SomeHoldsIn d fs ↔ ∃ f ∈ fs, f.HoldsIn d := by
  induction fs with
  | nil => simp [SomeHoldsIn]
  | cons f fs ih => simp [SomeHoldsIn, ih]

end Formula

/-! ## The clause of a leaf -/

section Leaves

variable (d : IndexedDocument)

/-- The clause of a script says what the script says: where there is none, nothing. -/
theorem guarded?_matchedBy_iff (left right source : String) :
    ((Script.guarded? left right source).getD .matchAll).matchedBy d.reading = true ↔
      d.Runs left right source := by
  unfold Script.guarded? IndexedDocument.Runs
  split
  · rename_i hquotable
    rw [Bool.and_eq_true] at hquotable
    rw [Option.getD_some, Clause.matchedBy_allOf]
    simp [hquotable, Clause.matchedBy, IndexedDocument.reading]
  · rename_i hquotable
    rw [Bool.and_eq_true] at hquotable
    constructor
    · intro _ hleft hright
      exact absurd ⟨hleft, hright⟩ hquotable
    · intro _
      rfl

/-- The clause of a comparison matches a document exactly when the comparison holds of it. -/
theorem Comparison.clauseOf?_matchedBy_iff (op : Comparison) (left right : Operand) :
    ((op.clauseOf? left right).getD .matchAll).matchedBy d.reading = true ↔
      op.HoldsIn d left right := by
  rw [HoldsIn, clauseOf?, ← left.name?_side, ← right.name?_side, ← left.literal?_side,
    ← right.literal?_side]
  cases left.side with
  | field name =>
      cases right.side with
      | field r => exact guarded?_matchedBy_iff d _ _ _
      | literal v => exact d.clause_matchedBy_iff op name v
      | nothing => simp [Side.name?, Side.literal?, Clause.matchedBy]
  | literal v =>
      cases right.side with
      | field name =>
          have hmirrored := d.clause_matchedBy_iff op.mirrored name v
          rw [d.compares_mirrored] at hmirrored
          exact hmirrored
      | literal w => simp [Side.name?, Clause.matchedBy]
      | nothing => simp [Side.name?, Clause.matchedBy]
  | nothing =>
      cases right.side with
      | field name => simp [Side.name?, Side.literal?, Clause.matchedBy]
      | literal v => simp [Side.name?, Clause.matchedBy]
      | nothing => simp [Side.name?, Clause.matchedBy]

/-- The clause of a test for a text matches a document exactly when the pattern finds it. -/
theorem TextTest.clause_matchedBy_iff (op : TextTest) (name value : String) :
    (op.clause name value).matchedBy d.reading = true ↔ d.Tests op name value := by
  cases op with
  | contains =>
      rw [clause, Wildcard.ofList_holding]
      exact Iff.rfl
  | startsWith =>
      rw [clause, Wildcard.ofList_beginning]
      exact Iff.rfl
  | endsWith =>
      rw [clause, Wildcard.ofList_ending]
      exact Iff.rfl
  | regex =>
      constructor
      · intro h
        refine ⟨_, ?_, h⟩
        rw [String.toList_ofList]
        exact Regexp.unwrapped_iff.mpr rfl
      · rintro ⟨pattern, hpattern, h⟩
        rw [clause, Regexp.unwrapped_iff.mp hpattern, String.ofList_toList]
        exact h

/-- So does the clause of a test between two fields. -/
theorem TextTest.script_matchedBy_iff (op : TextTest) (l r : String) :
    ((Script.textTest? op l r).getD .matchAll).matchedBy d.reading = true ↔
      d.TestsFields op l r := by
  cases op with
  | contains | startsWith | endsWith => exact guarded?_matchedBy_iff d _ _ _
  | regex => exact iff_of_true rfl trivial

/-- The clause of a text test matches a document exactly when the test holds of it. -/
theorem TextTest.clauseOf?_matchedBy_iff (op : TextTest) (left right : TextOperand) :
    ((op.clauseOf? left right).getD .matchAll).matchedBy d.reading = true ↔
      op.HoldsIn d left right := by
  rw [HoldsIn, clauseOf?, ← left.name?_side, ← right.name?_side, ← left.literal?_side,
    ← right.literal?_side]
  cases left.side with
  | field name =>
      cases right.side with
      | field r => exact op.script_matchedBy_iff d name r
      | literal s => exact op.clause_matchedBy_iff d name s
      | nothing => simp [Side.name?, Side.literal?, Clause.matchedBy]
  | literal s =>
      cases right.side with
      | field name => exact op.clause_matchedBy_iff d name s
      | literal t => simp [Side.name?, Clause.matchedBy]
      | nothing => simp [Side.name?, Clause.matchedBy]
  | nothing =>
      cases right.side with
      | field name => simp [Side.name?, Side.literal?, Clause.matchedBy]
      | literal s => simp [Side.name?, Clause.matchedBy]
      | nothing => simp [Side.name?, Clause.matchedBy]

end Leaves

/-! ## The clause of a condition -/

section Connectives

variable {d : IndexedDocument} {parts : List Formula}

/-- The clause of a conjunction matches where all parts hold, if the clauses of the parts match
where they hold. -/
theorem allOf_matchedBy_iff
    (h : ∀ f ∈ parts, f.compile.matchedBy d.reading = true ↔ f.HoldsIn d) :
    (Formula.allOf parts).compile.matchedBy d.reading = true ↔ ∀ f ∈ parts, f.HoldsIn d := by
  by_cases hne : parts = []
  · simp [hne, Formula.compile, Clause.matchedBy]
  · rw [compile_allOf hne, Clause.matchedBy_allOf, List.all_eq_true, List.forall_mem_map,
      List.forall_mem_map]
    exact forall₂_congr h

/-- The clause of a disjunction matches where some part holds, or where there is none. -/
theorem anyOf_matchedBy_iff
    (h : ∀ f ∈ parts, f.compile.matchedBy d.reading = true ↔ f.HoldsIn d) :
    (Formula.anyOf parts).compile.matchedBy d.reading = true ↔
      parts = [] ∨ ∃ f ∈ parts, f.HoldsIn d := by
  by_cases hne : parts = []
  · simp [hne, Formula.compile, Clause.matchedBy]
  · rw [compile_anyOf hne, Clause.matchedBy_anyOf, or_iff_right hne, List.any_map, List.any_map,
      List.any_eq_true]
    exact exists_congr fun f => and_congr_right (h f)

end Connectives

/-- A leaf matches a document if the clause of its two operands does, or if it has not two
operands. -/
theorem leaf_matchedBy_iff {α : Type} (d : IndexedDocument) (operands : List α)
    (clauseOf? : α → α → Option Clause) (holds : α → α → Prop)
    (h : ∀ left right, ((clauseOf? left right).getD .matchAll).matchedBy d.reading = true ↔
      holds left right) :
    (((pair? operands).bind fun p => clauseOf? p.1 p.2).getD .matchAll).matchedBy d.reading = true
      ↔ ∀ left right, operands = [left, right] → holds left right := by
  cases hpair : pair? operands with
  | none =>
      have hother (left right : α) : operands ≠ [left, right] := fun heq => by
        rw [(pair?_eq_some_iff operands (left, right)).mpr heq] at hpair
        cases hpair
      simp [hother, Clause.matchedBy]
  | some sides =>
      have hoperands := (pair?_eq_some_iff operands sides).mp hpair
      rw [Option.bind_some, h, hoperands]
      constructor
      · intro hholds left right heq
        cases heq
        exact hholds
      · intro hholds
        exact hholds _ _ rfl

/-- A search for a condition finds exactly the documents of which the condition holds. -/
theorem found_iff_holdsIn (d : IndexedDocument) (f : Formula) :
    f.compile.matchedBy d.reading = true ↔ f.HoldsIn d := by
  induction f with
  | allOf parts ih => rw [allOf_matchedBy_iff ih, Formula.HoldsIn, Formula.eachHoldsIn_iff]
  | matchOf parts ih =>
      rw [compile_matchOf, allOf_matchedBy_iff ih, Formula.HoldsIn, Formula.eachHoldsIn_iff]
  | anyOf parts ih => rw [anyOf_matchedBy_iff ih, Formula.HoldsIn, Formula.someHoldsIn_iff]
  | negation f ih =>
      rw [Formula.compile, Clause.matchedBy_negated, Formula.HoldsIn, ← ih]
      simp
  | constant b => cases b <;> simp [Formula.compile, Clause.matchedBy, Formula.HoldsIn]
  | comparison op operands =>
      rw [Formula.compile, Comparison.clause?, Formula.HoldsIn]
      exact leaf_matchedBy_iff d operands op.clauseOf? _ (op.clauseOf?_matchedBy_iff d)
  | textTest op operands =>
      rw [Formula.compile, TextTest.clause?, Formula.HoldsIn]
      exact leaf_matchedBy_iff d operands op.clauseOf? _ (op.clauseOf?_matchedBy_iff d)

/-- With the literal on the left the field has to lie above it. -/
example (d : IndexedDocument) :
    (Formula.comparison .lt [.text "M", .field "$cd#category"]).compile.matchedBy d.reading =
      (d.field? "category").any fun s => !d.order.le s (.text "M") := rfl

end AssetAccess
