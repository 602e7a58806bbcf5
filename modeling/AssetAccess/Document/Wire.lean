import AssetAccess.Document.Basic
import AssetAccess.Json.Reader
import AssetAccess.Rule.Wire
set_option autoImplicit false

/-!
# The wire form of rule documents

A document is a record with a single field, and all it consists of are records.
Documents are only read.
-/

namespace AssetAccess

namespace Definition

/-- The definition of a wire form whose value stands under a given key. -/
def decode? {α : Type} (key : String) (value : Json → Option α) (v : Json) :
    Option (Definition α) := do
  match ← v.slots? ["name", key] with
  | [name, slot] =>
    let name ← name.required Json.string?
    let value ← slot.required value
    some ⟨name, value⟩
  | _ => none

end Definition

namespace AclEntry

/-- The access control list of a wire form. -/
def decode? (v : Json) : Option AclEntry := do
  match ← v.slots? ["ATTRIBUTES", "USEATTRIBUTES", "RIGHTS", "ACCESS"] with
  | [attributes, useAttributes, rights, access] =>
    let attributes ← attributes.defaulted (Json.listOf? Attribute.decode?) []
    let useAttributes ← useAttributes.optional Json.string?
    let rights ← rights.required Rights.decode?
    let access ← access.required Access.decode?
    some ⟨attributes, useAttributes, rights, access⟩
  | _ => none

end AclEntry

namespace RuleEntry

/-- The rule of a wire form. -/
def decode? (v : Json) : Option RuleEntry := do
  match ← v.slots? ["ACL", "USEACL", "OBJECTS", "USEOBJECTS", "FORMULA", "USEFORMULA"] with
  | [acl, useAcl, targets, useTargets, formula, useFormula] =>
    let acl ← acl.optional AclEntry.decode?
    let useAcl ← useAcl.optional Json.string?
    let targets ← targets.defaulted (Json.listOf? Target.decode?) []
    let useTargets ← useTargets.defaulted (Json.listOf? Json.string?) []
    let formula ← formula.optional Formula.decode?
    let useFormula ← useFormula.optional Json.string?
    some ⟨acl, useAcl, targets, useTargets, formula, useFormula⟩
  | _ => none

end RuleEntry

namespace Document

/-- The definitions and rules of a wire form. -/
def decodeBody? (v : Json) : Option Document := do
  match ← v.slots? ["DEFATTRIBUTES", "DEFACLS", "DEFOBJECTS", "DEFFORMULAS", "rules"] with
  | [attributes, acls, targets, formulas, rules] =>
    let attributes ← attributes.defaulted
      (Json.listOf? (Definition.decode? "attributes" (Json.listOf? Attribute.decode?))) []
    let acls ← acls.defaulted (Json.listOf? (Definition.decode? "acl" AclEntry.decode?)) []
    let targets ← targets.defaulted
      (Json.listOf? (Definition.decode? "objects" (Json.listOf? Target.decode?))) []
    let formulas ← formulas.defaulted
      (Json.listOf? (Definition.decode? "formula" Formula.decode?)) []
    let rules ← rules.defaulted (Json.listOf? RuleEntry.decode?) []
    some ⟨attributes, acls, targets, formulas, rules⟩
  | _ => none

/-- The document of a wire form. -/
def decode? (v : Json) : Option Document := do
  match ← v.slots? ["AllAccessPermissionRules"] with
  | [body] => body.required decodeBody?
  | _ => none

/-- The document of a text. -/
def parse? (text : String) : Option Document := (Json.parse? text).bind decode?

end Document

end AssetAccess
