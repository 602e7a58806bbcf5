import AssetAccess.Formula.Wire
import AssetAccess.Rule.Basic
set_option autoImplicit false

/-!
# The wire form of access rules

Rights and access are names, targets are variants, the list and the rule itself are
records.  `DISABLED` is another name for `DENY` when it is read.
-/

namespace AssetAccess

open Json (keyed)

namespace Right

/-- The wire form of a right. -/
def encode (r : Right) : Json := .string r.name

/-- The right of a wire form. -/
def decode? (v : Json) : Option Right := v.name?.bind ofName?

theorem decode?_encode (r : Right) : decode? r.encode = some r := ofName?_name r

end Right

namespace Rights

/-- The wire form of a set of rights. -/
def encode (s : Rights) : Json := .array (s.members.map Right.encode)

/-- The set of rights of a wire form. -/
def decode? (v : Json) : Option Rights := (v.listOf? Right.decode?).map ofList

end Rights

namespace Access

/-- The wire form of an access. -/
def encode : Access → Json
  | .allow => .string "ALLOW"
  | .deny => .string "DENY"

/-- The access of a wire form. -/
def decode? (v : Json) : Option Access :=
  v.name?.bind fun s =>
    if s = "ALLOW" then some .allow
    else if s = "DENY" ∨ s = "DISABLED" then some .deny
    else none

theorem decode?_encode (a : Access) : decode? a.encode = some a := by cases a <;> rfl

end Access

namespace Target

/-- The wire form of a target. -/
def encode : Target → Json
  | .route path => keyed "ROUTE" (.string path)
  | .identifiable id => keyed "IDENTIFIABLE" (.string id)
  | .referable id => keyed "REFERABLE" (.string id)
  | .fragment id => keyed "FRAGMENT" (.string id)
  | .descriptor id => keyed "DESCRIPTOR" (.string id)

/-- The target of a wire form. -/
def decode? : Json → Option Target
  | .object [(key, v)] =>
    if key = "ROUTE" then v.string?.map .route
    else if key = "IDENTIFIABLE" then v.string?.map .identifiable
    else if key = "REFERABLE" then v.string?.map .referable
    else if key = "FRAGMENT" then v.string?.map .fragment
    else if key = "DESCRIPTOR" then v.string?.map .descriptor
    else none
  | _ => none

theorem decode?_encode (t : Target) : decode? t.encode = some t := by cases t <;> rfl

end Target

namespace Acl

/-- The wire form of an access control list. -/
def encode (a : Acl) : Json :=
  .object
    [("ACCESS", a.access.encode), ("RIGHTS", a.rights.encode),
     ("ATTRIBUTES", .array (a.attributes.map Attribute.encode))]

/-- The access control list of a wire form. -/
def decode? (v : Json) : Option Acl := do
  match ← v.slots? ["ACCESS", "RIGHTS", "ATTRIBUTES"] with
  | [access, rights, attributes] =>
    let access ← access.required Access.decode?
    let rights ← rights.required Rights.decode?
    let attributes ← attributes.defaulted (Json.listOf? Attribute.decode?) []
    some ⟨access, rights, attributes⟩
  | _ => none

end Acl

namespace Rule

/-- The wire form of a rule. -/
def encode (r : Rule) : Json :=
  .object
    [("ACL", r.acl.encode), ("OBJECTS", .array (r.targets.map Target.encode)),
     ("FORMULA", r.formula.encode)]

/-- The rule of a wire form. -/
def decode? (v : Json) : Option Rule := do
  match ← v.slots? ["ACL", "OBJECTS", "FORMULA"] with
  | [acl, targets, formula] =>
    let acl ← acl.required Acl.decode?
    let targets ← targets.required (Json.listOf? Target.decode?)
    let formula ← formula.required Formula.decode?
    some ⟨acl, targets, formula⟩
  | _ => none

end Rule

end AssetAccess
