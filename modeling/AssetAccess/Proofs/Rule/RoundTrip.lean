import AssetAccess.Proofs.Formula.RoundTrip
import AssetAccess.Rule.Wire
set_option autoImplicit false

/-!
# Rules read back

The wire form of a rule is read as the rule.  Rights are written in their fixed order, which
is the order that a set of rights keeps, so also the set is read as it was.
-/

namespace AssetAccess

theorem Rights.decode?_encode (s : Rights) : decode? s.encode = some s := by
  rw [decode?, encode, Json.listOf?_map Right.decode?_encode, Option.map_some, ofList_members]

theorem Acl.encode_ne_null (a : Acl) : a.encode ≠ .null := Json.noConfusion

theorem Acl.decode?_encode (a : Acl) : decode? a.encode = some a := by
  obtain ⟨access, rights, attributes⟩ := a
  have hslots : (encode ⟨access, rights, attributes⟩).slots? ["ACCESS", "RIGHTS", "ATTRIBUTES"] =
      some [.given access.encode, .given rights.encode,
        .given (.array (attributes.map Attribute.encode))] := rfl
  simp only [decode?, hslots, Option.bind_eq_bind, Option.bind_some, Json.Slot.required,
    Json.Slot.defaulted, Access.decode?_encode, Rights.decode?_encode,
    Json.listOf?_map Attribute.decode?_encode]

theorem Rule.decode?_encode (r : Rule) : decode? r.encode = some r := by
  obtain ⟨acl, targets, formula⟩ := r
  have hslots : (encode ⟨acl, targets, formula⟩).slots? ["ACL", "OBJECTS", "FORMULA"] =
      some [.given acl.encode, .given (.array (targets.map Target.encode)),
        .given formula.encode] := rfl
  simp only [decode?, hslots, Option.bind_eq_bind, Option.bind_some, Json.Slot.required,
    Acl.decode?_encode, Formula.decode?_encode, Json.listOf?_map Target.decode?_encode]

end AssetAccess
