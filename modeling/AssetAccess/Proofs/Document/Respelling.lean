import AssetAccess.Document.Wire
import AssetAccess.Proofs.Formula.Respelling
set_option autoImplicit false

/-!
# Dates in rules and documents

Rules and rule documents are records around formulas.  Their decoders read respelled trees
alike, wherever the date stands: in a formula of a rule, in a definition, or in a place that is
not read at all.
-/

namespace AssetAccess

open Json (ignoresSpelling_listOf? ignoresSpelling_of_slots ignoresSpelling_string?)

theorem Right.ignoresSpelling : IgnoresSpelling Right.decode? := by
  intro v w h
  rw [decode?, decode?, h.name?_eq_none.1, h.name?_eq_none.2]

theorem Rights.ignoresSpelling : IgnoresSpelling Rights.decode? := by
  intro v w h
  rw [decode?, decode?, ignoresSpelling_listOf? Right.ignoresSpelling v w h]

theorem Access.ignoresSpelling : IgnoresSpelling Access.decode? := by
  intro v w h
  rw [decode?, decode?, h.name?_eq_none.1, h.name?_eq_none.2]

theorem Target.ignoresSpelling : IgnoresSpelling Target.decode? := by
  intro v w h
  induction h using Json.Respelled.variants with
  | here p text => cases p <;> rfl
  | item => rfl
  | single key hinner _ =>
      change decode? (.object [(key, _)]) = decode? (.object [(key, _)])
      rw [decode?, decode?, hinner.string?_eq_none.1, hinner.string?_eq_none.2]
  | several => rfl

theorem Acl.ignoresSpelling : IgnoresSpelling Acl.decode? := by
  refine ignoresSpelling_of_slots (by intro p; cases p <;> decide) ?_
  intro ss ts h
  -- only as many slots as there are fields are read, here as in the other records
  rcases h with _ | ⟨haccess, _ | ⟨hrights, _ | ⟨hattributes, _ | _⟩⟩⟩
  · rfl
  · rfl
  · rfl
  · dsimp only
    rw [haccess.required Access.ignoresSpelling, hrights.required Rights.ignoresSpelling,
      hattributes.defaulted (ignoresSpelling_listOf? Attribute.ignoresSpelling)]
  · rfl

theorem Rule.ignoresSpelling : IgnoresSpelling Rule.decode? := by
  refine ignoresSpelling_of_slots (by intro p; cases p <;> decide) ?_
  intro ss ts h
  rcases h with _ | ⟨hacl, _ | ⟨htargets, _ | ⟨hformula, _ | _⟩⟩⟩
  · rfl
  · rfl
  · rfl
  · dsimp only
    rw [hacl.required Acl.ignoresSpelling,
      htargets.required (ignoresSpelling_listOf? Target.ignoresSpelling),
      hformula.required Formula.ignoresSpelling]
  · rfl

theorem Definition.ignoresSpelling {α : Type} {key : String} {value : Json → Option α}
    (hkey : ∀ p : DatePart, p.key ≠ key) (hvalue : IgnoresSpelling value) :
    IgnoresSpelling (Definition.decode? key value) := by
  have hnames (p : DatePart) : p.key ∉ ["name", key] := by
    rw [List.mem_cons, List.mem_singleton, not_or]
    exact ⟨by cases p <;> decide, hkey p⟩
  refine ignoresSpelling_of_slots hnames ?_
  intro ss ts h
  rcases h with _ | ⟨hname, _ | ⟨hslot, _ | _⟩⟩
  · rfl
  · rfl
  · dsimp only
    rw [hname.required ignoresSpelling_string?, hslot.required hvalue]
  · rfl

theorem AclEntry.ignoresSpelling : IgnoresSpelling AclEntry.decode? := by
  refine ignoresSpelling_of_slots (by intro p; cases p <;> decide) ?_
  intro ss ts h
  rcases h with _ | ⟨hattributes, _ | ⟨huse, _ | ⟨hrights, _ | ⟨haccess, _ | _⟩⟩⟩⟩
  · rfl
  · rfl
  · rfl
  · rfl
  · dsimp only
    rw [hattributes.defaulted (ignoresSpelling_listOf? Attribute.ignoresSpelling),
      huse.optional ignoresSpelling_string?, hrights.required Rights.ignoresSpelling,
      haccess.required Access.ignoresSpelling]
  · rfl

theorem RuleEntry.ignoresSpelling : IgnoresSpelling RuleEntry.decode? := by
  refine ignoresSpelling_of_slots (by intro p; cases p <;> decide) ?_
  intro ss ts h
  rcases h with _ | ⟨hacl, _ | ⟨huseAcl, _ | ⟨htargets, _ | ⟨huseTargets,
    _ | ⟨hformula, _ | ⟨huseFormula, _ | _⟩⟩⟩⟩⟩⟩
  · rfl
  · rfl
  · rfl
  · rfl
  · rfl
  · rfl
  · dsimp only
    rw [hacl.optional AclEntry.ignoresSpelling, huseAcl.optional ignoresSpelling_string?,
      htargets.defaulted (ignoresSpelling_listOf? Target.ignoresSpelling),
      huseTargets.defaulted (ignoresSpelling_listOf? ignoresSpelling_string?),
      hformula.optional Formula.ignoresSpelling,
      huseFormula.optional ignoresSpelling_string?]
  · rfl

namespace Document

theorem ignoresSpelling_body : IgnoresSpelling decodeBody? := by
  refine ignoresSpelling_of_slots (by intro p; cases p <;> decide) ?_
  have hattributesKey (p : DatePart) : p.key ≠ "attributes" := by cases p <;> decide
  have haclKey (p : DatePart) : p.key ≠ "acl" := by cases p <;> decide
  have hobjectsKey (p : DatePart) : p.key ≠ "objects" := by cases p <;> decide
  have hformulaKey (p : DatePart) : p.key ≠ "formula" := by cases p <;> decide
  intro ss ts h
  rcases h with _ | ⟨hattributes, _ | ⟨hacls, _ | ⟨htargets, _ | ⟨hformulas, _ | ⟨hrules, _ | _⟩⟩⟩⟩⟩
  · rfl
  · rfl
  · rfl
  · rfl
  · rfl
  · dsimp only
    rw [hattributes.defaulted (ignoresSpelling_listOf? (Definition.ignoresSpelling
        hattributesKey (ignoresSpelling_listOf? Attribute.ignoresSpelling))),
      hacls.defaulted (ignoresSpelling_listOf? (Definition.ignoresSpelling
        haclKey AclEntry.ignoresSpelling)),
      htargets.defaulted (ignoresSpelling_listOf? (Definition.ignoresSpelling
        hobjectsKey (ignoresSpelling_listOf? Target.ignoresSpelling))),
      hformulas.defaulted (ignoresSpelling_listOf? (Definition.ignoresSpelling
        hformulaKey Formula.ignoresSpelling)),
      hrules.defaulted (ignoresSpelling_listOf? RuleEntry.ignoresSpelling)]
  · rfl

theorem ignoresSpelling : IgnoresSpelling decode? := by
  refine ignoresSpelling_of_slots (by intro p; cases p <;> decide) ?_
  intro ss ts h
  rcases h with _ | ⟨hbody, _ | _⟩
  · rfl
  · exact hbody.required ignoresSpelling_body
  · rfl

end Document

end AssetAccess
