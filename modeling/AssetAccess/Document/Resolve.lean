import AssetAccess.Document.Basic
import AssetAccess.Table
set_option autoImplicit false

/-!
# Resolving a rule document

The names in a document are replaced by what they stand for, in one pass: first the
four lists of definitions are read into tables, then the rules are resolved in order.
Faults do not stop the pass.  They are all collected, and the document resolves
completely or not at all.
-/

namespace AssetAccess.Document

/-- The result of a step that may find faults: what was found wrong, and the value as far
as there is one. -/
structure Checked (α : Type) where
  faults : List Fault
  value : α

/-- The definitions of a document by name. -/
structure Tables where
  attributes : List (String × List Attribute)
  acls : List (String × AclEntry)
  targets : List (String × List Target)
  formulas : List (String × Formula)

/-- One definition goes into its table; a name that is there already is a fault, and its
first definition stays. -/
def Checked.define {α : Type} (c : Checked (List (String × α))) (d : Definition α) :
    Checked (List (String × α)) :=
  if Table.hasKey d.name c.value then ⟨c.faults ++ [.redefined d.name], c.value⟩
  else ⟨c.faults, c.value ++ [(d.name, d.value)]⟩

/-- The table of a list of definitions. -/
def tabulate {α : Type} (definitions : List (Definition α)) : Checked (List (String × α)) :=
  definitions.foldl Checked.define ⟨[], []⟩

/-- The tables of a document. -/
def tables (d : Document) : Checked Tables :=
  let attributes := tabulate d.attributes
  let acls := tabulate d.acls
  let targets := tabulate d.targets
  let formulas := tabulate d.formulas
  ⟨attributes.faults ++ acls.faults ++ targets.faults ++ formulas.faults,
    ⟨attributes.value, acls.value, targets.value, formulas.value⟩⟩

/-- A part that is written out, or named and defined; exactly one of the two. -/
def select {α : Type} (written : Option α) (name : Option String)
    (defined : List (String × α)) (missing : Fault) (unknown : String → Fault) (part : Part) :
    Checked (Option α) :=
  match written, name with
  | some a, none => ⟨[], some a⟩
  | none, some n =>
    match Table.first? n defined with
    | some a => ⟨[], some a⟩
    | none => ⟨[unknown n], none⟩
  | some _, some _ => ⟨[.ambiguous part], none⟩
  | none, none => ⟨[missing], none⟩

/-- The access control list of an entry: its own attributes, then the defined ones. -/
def completeAcl (t : Tables) (e : AclEntry) : Checked Acl :=
  match e.useAttributes with
  | none => ⟨[], ⟨e.access, e.rights, e.attributes⟩⟩
  | some name =>
    match Table.first? name t.attributes with
    | some defined => ⟨[], ⟨e.access, e.rights, e.attributes ++ defined⟩⟩
    | none => ⟨[.unknownAttributes name], ⟨e.access, e.rights, e.attributes⟩⟩

/-- The targets under one more name are added. -/
def Checked.addTargets (t : Tables) (c : Checked (List Target)) (name : String) :
    Checked (List Target) :=
  match Table.first? name t.targets with
  | some defined => ⟨c.faults, c.value ++ defined⟩
  | none => ⟨c.faults ++ [.unknownTargets name], c.value⟩

/-- One rule.  A rule with a fault has no value. -/
def resolveRule (t : Tables) (e : RuleEntry) : Checked (Option Rule) :=
  let entry := select e.acl e.useAcl t.acls .noAcl .unknownAcl .acl
  let acl : Checked (Option Acl) :=
    match entry.value with
    | some a => ⟨(completeAcl t a).faults, some (completeAcl t a).value⟩
    | none => ⟨[], none⟩
  let targets := e.useTargets.foldl (Checked.addTargets t) ⟨[], e.targets⟩
  let formula := select e.formula e.useFormula t.formulas .noFormula .unknownFormula .formula
  let faults := entry.faults ++ acl.faults ++ targets.faults ++ formula.faults
  match faults, acl.value, formula.value with
  | [], some a, some f => ⟨[], some ⟨a, targets.value, f⟩⟩
  | faults, _, _ => ⟨faults, none⟩

/-- The pass over the rules: the errors and the rules so far, and the next index. -/
structure Pass where
  errors : List Error
  rules : List Rule
  next : Nat

/-- One more rule. -/
def Pass.step (t : Tables) (p : Pass) (e : RuleEntry) : Pass :=
  let c := resolveRule t e
  ⟨p.errors ++ c.faults.map fun f => ⟨some p.next, f⟩, p.rules ++ c.value.toList, p.next + 1⟩

/-- The rules of a document, or all that is wrong with it. -/
def resolve (d : Document) : Except (List Error) (List Rule) :=
  let t := d.tables
  let p := d.rules.foldl (Pass.step t.value) ⟨t.faults.map fun f => ⟨none, f⟩, [], 0⟩
  if p.errors.isEmpty then .ok p.rules else .error p.errors

end AssetAccess.Document
