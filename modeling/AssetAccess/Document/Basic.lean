import AssetAccess.Rule.Basic
set_option autoImplicit false

/-!
# Rule documents

A document defines attributes, access control lists, targets and formulas under names
and has rules whose parts are written out or taken from a definition.  The four lists
are four name spaces.

What can be wrong with a document is a `Fault`, located at the rule it concerns.
-/

namespace AssetAccess

/-- A named definition. -/
structure Definition (α : Type) where
  name : String
  value : α

/-- An access control list as written: part of its attributes may be defined elsewhere. -/
structure AclEntry where
  attributes : List Attribute
  useAttributes : Option String
  rights : Rights
  access : Access

/-- A rule as written: each part written out, or by name. -/
structure RuleEntry where
  acl : Option AclEntry
  useAcl : Option String
  targets : List Target
  useTargets : List String
  formula : Option Formula
  useFormula : Option String

/-- A rule document. -/
structure Document where
  attributes : List (Definition (List Attribute))
  acls : List (Definition AclEntry)
  targets : List (Definition (List Target))
  formulas : List (Definition Formula)
  rules : List RuleEntry

namespace Document

/-- A part of a rule that may be written out or named. -/
inductive Part where
  | acl
  | formula
  deriving DecidableEq

/-- The keyword of a part. -/
def Part.keyword : Part → String
  | .acl => "ACL"
  | .formula => "FORMULA"

/-- What is wrong with a document. -/
inductive Fault where
  /-- a name is defined again in the same list -/
  | redefined (name : String)
  /-- no attributes are defined under the name -/
  | unknownAttributes (name : String)
  /-- no access control list is defined under the name -/
  | unknownAcl (name : String)
  /-- no targets are defined under the name -/
  | unknownTargets (name : String)
  /-- no formula is defined under the name -/
  | unknownFormula (name : String)
  /-- a rule has no access control list -/
  | noAcl
  /-- a rule has no formula -/
  | noFormula
  /-- a rule has a part both written out and named -/
  | ambiguous (part : Part)
  deriving DecidableEq

/-- The wording of a fault. -/
def Fault.message : Fault → String
  | .redefined name => name ++ " is defined multiple times"
  | .unknownAttributes name => "unresolved attributes definition: " ++ name
  | .unknownAcl name => "unresolved ACL definition: " ++ name
  | .unknownTargets name => "unresolved objects definition: " ++ name
  | .unknownFormula name => "unresolved formula definition: " ++ name
  | .noAcl => "rule has no ACL"
  | .noFormula => "rule has no formula"
  | .ambiguous part => "rule has both an inline " ++ part.keyword ++ " and a reference"

/-- A fault, and the index of the rule it concerns, if it concerns one. -/
structure Error where
  rule : Option Nat
  fault : Fault
  deriving DecidableEq

/-- The wording of an error. -/
def Error.message (e : Error) : String :=
  match e.rule with
  | some index => "rule " ++ String.ofList (Text.decimal index) ++ ": " ++ e.fault.message
  | none => e.fault.message

end Document

end AssetAccess
