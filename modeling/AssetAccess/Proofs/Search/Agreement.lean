import AssetAccess.Proofs.Decision.Coherence
import AssetAccess.Proofs.Search.Conditions
set_option autoImplicit false

/-!
# Deciding and searching agree

A formula is evaluated against the attributes of one target, and compiled into a clause
that an index asks of its documents.  The two ways treat a formula alike where it compares
fields with texts: a rule that grants access to a target then holds exactly where a search
for the same condition finds the target's document.

An attribute that is not there is where the two could part.  No comparison with it has an
order, so every comparison but `ne` fails, and a term or a range does not match a field
that is missing; `ne` is the negation of `eq` on either side.
-/

namespace AssetAccess

/-! ## The common formulas -/

/-- The formulas that have one meaning for a rule and for a search: no connective is
empty, and every leaf compares a field that the index knows with a text. -/
inductive Formula.Common : Formula → Prop where
  | constant (b : Bool) : Common (.constant b)
  | negation {part : Formula} : Common part → Common (.negation part)
  | allOf {parts : List Formula} :
      parts ≠ [] → (∀ f ∈ parts, Common f) → Common (.allOf parts)
  | anyOf {parts : List Formula} :
      parts ≠ [] → (∀ f ∈ parts, Common f) → Common (.anyOf parts)
  | matchOf {parts : List Formula} :
      parts ≠ [] → (∀ f ∈ parts, Common f) → Common (.matchOf parts)
  | comparison (op : Comparison) {path : String} (value : String) :
      (Field.indexName? path).isSome → Common (.comparison op [.field path, .text value])

/-- The attributes of a target tell of some fields what a document holds: its text for a
field that is there, and nothing for one that is not. -/
def Describes (target : TargetAttributes) (document : TextDocument) (paths : List String) :
    Prop :=
  ∀ path ∈ paths,
    Table.last? path target = ((Field.indexName? path).bind document).map Operand.text

theorem Describes.mono {target : TargetAttributes} {document : TextDocument}
    {paths paths' : List String} (h : Describes target document paths)
    (hsub : ∀ path ∈ paths', path ∈ paths) : Describes target document paths' :=
  fun path hpath => h path (hsub path hpath)

/-- Who describes the fields of some formulas describes those of each. -/
theorem Describes.of_mem {target : TargetAttributes} {document : TextDocument}
    {parts : List Formula} (h : Describes target document (Formula.fieldsAll parts))
    {f : Formula} (hf : f ∈ parts) : Describes target document f.fields := by
  apply h.mono
  intro path hpath
  rw [Formula.fieldsAll_eq_flatMap, List.mem_flatMap]
  exact ⟨f, hf, hpath⟩

/-! ## One comparison -/

/-- A field of a described target is compared with a text as the document's text is. -/
theorem compare_field_text {env : Environment} {document : TextDocument} {path name : String}
    (hname : Field.indexName? path = some name)
    (hlast : Table.last? path env.target = (document name).map Operand.text) (value : String) :
    env.compare (.field path) (.text value) =
      (document name).map fun text => Text.order text value := by
  have hmodel : Field.isModelPath path = true := Field.isModelPath_of_indexName? hname
  simp only [Environment.compare, hmodel, if_true, Environment.compareField, hlast]
  cases document name with
  | none => rfl
  | some text => rfl

/-- The clause of a comparison matches where the comparison accepts the order of the document's
text; where the field is not there, only that of `ne` does. -/
theorem matchedBy_clause_text {r : Reading} {document : TextDocument} (hr : r.OfTexts document)
    (op : Comparison) (name value : String) :
    (op.clause name (.text value)).matchedBy r =
      ((document name).map fun text => op.accepts (Text.order text value)).getD
        (decide (op = .ne)) := by
  have hterm : r.term name (.text value) =
      ((document name).map fun text => (Text.order text value).isEq).getD false := by
    rw [hr.term]
    cases document name with
    | none => rfl
    | some text => simp [← decide_eq_isEq, Text.order_eq_iff]
  cases op with
  | eq => rw [Comparison.clause, Clause.matchedBy, hterm]; rfl
  | ne =>
      rw [Comparison.clause, Clause.matchedBy_negated, Clause.matchedBy, hterm]
      cases document name with
      | none => rfl
      | some text => cases h : Text.order text value <;> simp [Comparison.accepts, h]
  | le | lt | ge | gt =>
      rw [Comparison.clause, Clause.matchedBy, hr.range]
      simp only [Text.byteOrder_eq_order]
      cases document name <;> rfl

/-- A comparison of a field with a text holds exactly where its clause matches. -/
theorem test_eq_matchedBy {r : Reading} {document : TextDocument} (hr : r.OfTexts document)
    {env : Environment} {path name : String} (hname : Field.indexName? path = some name)
    (hlast : Table.last? path env.target = (document name).map Operand.text)
    (op : Comparison) (value : String) :
    env.test op (.field path) (.text value) =
      (op.clause name (.text value)).matchedBy r := by
  have hfield : ∀ items, ¬ env.Lists (.field path) items := nofun
  rw [Environment.test_of_not_lists hfield, compare_field_text hname hlast value,
    matchedBy_clause_text hr, Option.map_map]
  rfl

/-- The clause of a comparison of a field with a text. -/
theorem compile_comparison_field_text {path name : String}
    (hname : Field.indexName? path = some name) (op : Comparison) (value : String) :
    (Formula.comparison op [.field path, .text value]).compile =
      op.clause name (.text value) := op.compile_field_literal hname rfl

/-! ## Whole formulas -/

section Connectives

variable {r : Reading} {env : Environment} {parts : List Formula}

/-- A conjunction holds where its clause matches, if this is so of its parts. -/
theorem allOf_holds_eq_matchedBy (hne : parts ≠ [])
    (h : ∀ f ∈ parts, f.holds env = f.compile.matchedBy r) :
    (Formula.allOf parts).holds env = (Formula.allOf parts).compile.matchedBy r := by
  rw [Formula.holds, compile_allOf hne, Clause.matchedBy_allOf, List.map_map,
    Formula.holdsForAll_eq_all_map, List.map_congr_left h, List.isEmpty_eq_false_iff.mpr hne]
  rfl

/-- A disjunction holds where its clause matches, if this is so of its parts. -/
theorem anyOf_holds_eq_matchedBy (hne : parts ≠ [])
    (h : ∀ f ∈ parts, f.holds env = f.compile.matchedBy r) :
    (Formula.anyOf parts).holds env = (Formula.anyOf parts).compile.matchedBy r := by
  rw [Formula.holds, compile_anyOf hne, Clause.matchedBy_anyOf, List.map_map,
    Formula.holdsForSome_eq_any_map, List.map_congr_left h]
  rfl

end Connectives

/-- A common formula holds of what describes a document exactly where its clause matches
the document. -/
theorem Formula.Common.holds_eq_matchedBy {f : Formula} (hf : f.Common) {r : Reading}
    {document : TextDocument} (hr : r.OfTexts document) {env : Environment}
    (ht : Describes env.target document f.fields) :
    f.holds env = f.compile.matchedBy r := by
  induction hf with
  | constant b => cases b <;> rfl
  | negation _ ih =>
      rw [Formula.holds, Formula.compile, Clause.matchedBy_negated, ih ht]
  | allOf hne _ ih =>
      have hparts := fun f hf => ih f hf (ht.of_mem hf)
      exact allOf_holds_eq_matchedBy hne hparts
  | matchOf hne _ ih =>
      have hparts := fun f hf => ih f hf (ht.of_mem hf)
      rw [compile_matchOf]
      exact allOf_holds_eq_matchedBy hne hparts
  | anyOf hne _ ih =>
      have hparts := fun f hf => ih f hf (ht.of_mem hf)
      exact anyOf_holds_eq_matchedBy hne hparts
  | @comparison op path value hsome =>
      obtain ⟨name, hname⟩ := Option.isSome_iff_exists.mp hsome
      have hlast : Table.last? path env.target = (document name).map Operand.text := by
        have h := ht path (by simp [Formula.fields, Operand.fields])
        rwa [hname, Option.bind_some] at h
      rw [compile_comparison_field_text hname, Formula.holds]
      exact test_eq_matchedBy hr hname hlast op value

/-- A rule whose formula is a common one holds of a target exactly where a search for that
formula finds the target's document, whatever is resolved of claims and the clock. -/
theorem holds_iff_found {f : Formula} (hf : f.Common) {document : TextDocument} {r : Reading}
    (hr : r.OfTexts document) {target : TargetAttributes}
    (ht : Describes target document f.fields) (resolved : Resolved) :
    f.holds ⟨target, resolved⟩ = true ↔ f.compile.matchedBy r = true := by
  rw [hf.holds_eq_matchedBy hr ht]

/-! ## A document and its target -/

/-- An index that knows no more of a document than its texts. -/
def Reading.ofDocument (document : TextDocument) : Reading where
  term field value :=
    match value with
    | .text s => decide (document field = some s)
    | _ => false
  range field bound value :=
    match value with
    | .text s => (document field).any fun text => bound.admits (Text.byteOrder text s)
    | _ => false
  wildcard _ _ := false
  regexp _ _ := false
  present field := (document field).isSome
  script _ := false

theorem Reading.ofDocument_ofTexts (document : TextDocument) :
    (Reading.ofDocument document).OfTexts document :=
  ⟨fun _ _ => rfl, fun _ _ _ => rfl⟩

/-- A motor: it has a name and a state, and no category. -/
def motorDocument : TextDocument := fun field =>
  if field = "idShort.keyword" then some "Motor1"
  else if field = "value.keyword" then some "on"
  else none

/-- What is known of the motor. -/
def motorTarget : TargetAttributes :=
  [("$aas#idShort", .text "Motor1"), ("$sme.state#value", .text "on")]

/-- Its category is not `pump`, its name is not after `Pump`, and its state is `on`. -/
def motorCondition : Formula :=
  .allOf
    [.comparison .ne [.field "$cd#category", .text "pump"],
      .negation (.comparison .gt [.field "$aas#idShort", .text "Pump"]),
      .anyOf
        [.constant false,
          .matchOf [.comparison .eq [.field "$sme.state#value", .text "on"]]]]

/-- The condition holds of the motor, whose category is missing, and so a search for it
finds the motor. -/
theorem motor_found :
    motorCondition.Common ∧ (Reading.ofDocument motorDocument).OfTexts motorDocument ∧
      Describes motorTarget motorDocument motorCondition.fields ∧
      motorCondition.holds ⟨motorTarget, .empty⟩ = true ∧
      motorCondition.compile.matchedBy (.ofDocument motorDocument) = true := by
  have hcommon : motorCondition.Common := by
    refine .allOf (by simp) ?_
    simp only [List.mem_cons, List.not_mem_nil, or_false, forall_eq_or_imp, forall_eq]
    refine ⟨.comparison .ne "pump" rfl, .negation (.comparison .gt "Pump" rfl),
      .anyOf (by simp) ?_⟩
    simp only [List.mem_cons, List.not_mem_nil, or_false, forall_eq_or_imp, forall_eq]
    refine ⟨.constant false, .matchOf (by simp) ?_⟩
    simp only [List.mem_cons, List.not_mem_nil, or_false, forall_eq]
    exact .comparison .eq "on" rfl
  have hdescribes : Describes motorTarget motorDocument motorCondition.fields := by
    unfold Describes
    decide
  have hreading := Reading.ofDocument_ofTexts motorDocument
  have hholds : motorCondition.holds ⟨motorTarget, .empty⟩ = true := by decide
  exact ⟨hcommon, hreading, hdescribes, hholds,
    (holds_iff_found hcommon hreading hdescribes .empty).mp hholds⟩

end AssetAccess
