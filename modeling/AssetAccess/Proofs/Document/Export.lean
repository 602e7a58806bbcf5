import AssetAccess.Proofs.Document.Outcome
import AssetAccess.Proofs.Json.Writing
import AssetAccess.Proofs.Rule.RoundTrip
import AssetAccess.Service
set_option autoImplicit false

/-!
# Rules exported as a document

Rules that were resolved are exported as a document without definitions, each rule in its wire
form (`Document.exported`).  What is written for a rule is not what is read for an entry of a
document, but an entry reads it, as a rule with all its parts written out
(`RuleEntry.decode?_encode`).  So the document resolves to the rules that were exported, and a
service that loads it goes on as one that loads the rules from where they came
(`Document.export_faithful`).  There always is such a text, if the numbers in the formulas are
read back from their digits (`Document.rulesOf_compact_exported`).
-/

namespace AssetAccess

/-! ## Rules written out -/

/-- The entry of a list with no attributes to look up. -/
def Acl.written (a : Acl) : AclEntry := ⟨a.attributes, none, a.rights, a.access⟩

/-- The entry of a rule with no part to look up. -/
def Rule.written (r : Rule) : RuleEntry :=
  ⟨some r.acl.written, none, r.targets, [], some r.formula, none⟩

theorem AclEntry.decode?_encode (a : Acl) : AclEntry.decode? a.encode = some a.written := by
  obtain ⟨access, rights, attributes⟩ := a
  have hslots : (Acl.encode ⟨access, rights, attributes⟩).slots?
        ["ATTRIBUTES", "USEATTRIBUTES", "RIGHTS", "ACCESS"] =
      some [.given (.array (attributes.map Attribute.encode)), .absent, .given rights.encode,
        .given access.encode] := rfl
  simp only [decode?, hslots, Option.bind_eq_bind, Option.bind_some, Json.Slot.required,
    Json.Slot.optional, Json.Slot.defaulted, Access.decode?_encode, Rights.decode?_encode,
    Json.listOf?_map Attribute.decode?_encode, Acl.written]

theorem RuleEntry.decode?_encode (r : Rule) : RuleEntry.decode? r.encode = some r.written := by
  obtain ⟨acl, targets, formula⟩ := r
  have hslots : (Rule.encode ⟨acl, targets, formula⟩).slots?
        ["ACL", "USEACL", "OBJECTS", "USEOBJECTS", "FORMULA", "USEFORMULA"] =
      some [.given acl.encode, .absent, .given (.array (targets.map Target.encode)), .absent,
        .given formula.encode, .absent] := rfl
  have hacl := Json.Slot.optional_given acl.encode_ne_null (AclEntry.decode?_encode acl)
  have hformula := Json.Slot.optional_given formula.encode_ne_null (Formula.decode?_encode formula)
  simp only [decode?, hslots, Option.bind_eq_bind, Option.bind_some, hacl, hformula]
  simp only [Json.Slot.optional, Json.Slot.defaulted, Option.bind_some,
    Json.listOf?_map Target.decode?_encode, Rule.written]

/-- A rule that is written out denotes itself, in every document. -/
theorem Rule.written_denotes (d : Document) (r : Rule) : r.written.Denotes d r where
  acl := ⟨r.acl.written, .written _, rfl, rfl, [], .nil, (List.append_nil _).symm⟩
  targets := ⟨[], .nil, (List.append_nil _).symm⟩
  formula := .written _

namespace Document

/-- The document of some rules. -/
def ofRules (rules : List Rule) : Document := ⟨[], [], [], [], rules.map Rule.written⟩

/-- The wire form of the document of some rules, as far as there is something to write. -/
def exported (rules : List Rule) : Json :=
  Json.keyed "AllAccessPermissionRules" (Json.keyed "rules" (.array (rules.map Rule.encode)))

theorem decode?_exported (rules : List Rule) : decode? (exported rules) = some (ofRules rules) := by
  have hbody : decodeBody? (Json.keyed "rules" (.array (rules.map Rule.encode))) =
      (Json.listOf? RuleEntry.decode? (.array (rules.map Rule.encode))).bind
        fun es => some ⟨[], [], [], [], es⟩ := rfl
  have hdocument : decode? (exported rules) =
      decodeBody? (Json.keyed "rules" (.array (rules.map Rule.encode))) := rfl
  rw [hdocument, hbody, Json.listOf?_map_map RuleEntry.decode?_encode]
  rfl

theorem resolve_ofRules (rules : List Rule) : (ofRules rules).resolve = .ok rules := by
  rw [resolve_eq_ok_iff]
  refine ⟨⟨.nil, .nil, .nil, .nil⟩, ?_⟩
  rw [ofRules, List.forall₂_map_left_iff, List.forall₂_same]
  exact fun r _ => r.written_denotes (ofRules rules)

theorem rulesOf_of_spells {rules : List Rule} {text : String}
    (htext : Json.Spells text (exported rules)) (hdepth : (exported rules).depth ≤ Json.maxDepth) :
    rulesOf text = .ok rules := by
  have hparse : parse? text = some (ofRules rules) := by
    rw [parse?, htext.parse?_eq_self hdepth, Option.bind_some, decode?_exported]
  simp only [rulesOf, hparse, resolve_ofRules]

/-- Two texts with the same rules leave every service in the same state. -/
theorem reload_congr {text text' : String} {rules : List Rule} (h : rulesOf text = .ok rules)
    (h' : rulesOf text' = .ok rules) (s : Service) (path path' : String) :
    s.reload path (.ok text) = s.reload path' (.ok text') := by
  simp only [Service.reload, load, h, h']

/-- The export of some rules is read as a document that resolves to the rules.  Every text of it
loads to the rules, unless it is nested too deep; and a service that loads such a text instead
of the one from which the rules came gives the same answers from then on. -/
theorem export_faithful (rules : List Rule) :
    (∃ d, decode? (exported rules) = some d ∧ d.resolve = .ok rules) ∧
    (∀ text, Json.Spells text (exported rules) → (exported rules).depth ≤ Json.maxDepth →
      rulesOf text = .ok rules ∧
      ∀ source, rulesOf source = .ok rules → ∀ (s : Service) (path path' : String) steps,
        s.run (.reload path (.ok text) :: steps) =
          s.run (.reload path' (.ok source) :: steps)) := by
  refine ⟨⟨ofRules rules, decode?_exported rules, resolve_ofRules rules⟩, ?_⟩
  intro text htext hdepth
  have hloads := rulesOf_of_spells htext hdepth
  refine ⟨hloads, ?_⟩
  intro source hsource s path path' steps
  rw [Service.run, Service.run, Service.step, Service.step,
    reload_congr hloads hsource s path path']

/-! ## Texts of exports -/

section Legible

open Json (Legible)

theorem legible_keyed {key : String} {v : Json} (h : v.Legible) : (Json.keyed key v).Legible := by
  refine .object ?_
  intro m hm
  rw [List.mem_singleton.mp hm]
  exact h

theorem legible_map {α : Type} {encode : α → Json} (as : List α)
    (h : ∀ a ∈ as, (encode a).Legible) : (Json.array (as.map encode)).Legible := by
  refine .array ?_
  intro v hv
  obtain ⟨a, ha, rfl⟩ := List.mem_map.mp hv
  exact h a ha

theorem legible_attribute (a : Attribute) : a.encode.Legible := by
  cases a <;> exact legible_keyed (.string _)

theorem legible_target (t : Target) : t.encode.Legible := by
  cases t <;> exact legible_keyed (.string _)

theorem legible_acl (a : Acl) : a.encode.Legible := by
  refine .object ?_
  have haccess : a.access.encode.Legible := by cases a.access <;> exact .string _
  have hrights : a.rights.encode.Legible := legible_map _ fun r _ => .string _
  have hattributes := legible_map a.attributes fun x _ => legible_attribute x
  simpa [Acl.encode] using And.intro haccess (And.intro hrights hattributes)

/-- Exports are legible as far as their formulas are. -/
theorem legible_exported {rules : List Rule} (h : ∀ r ∈ rules, r.formula.encode.Legible) :
    (exported rules).Legible := by
  refine legible_keyed (legible_keyed (legible_map rules ?_))
  intro r hr
  have htargets := legible_map r.targets fun t _ => legible_target t
  refine .object ?_
  simpa using And.intro (legible_acl r.acl) (And.intro htargets (h r hr))

/-- Rules are exported to a text that loads to them. -/
theorem rulesOf_compact_exported {rules : List Rule}
    (h : ∀ r ∈ rules, r.formula.encode.Legible) (hdepth : (exported rules).depth ≤ Json.maxDepth) :
    rulesOf (exported rules).compact = .ok rules :=
  rulesOf_of_spells (legible_exported h).spells_compact hdepth

end Legible

/-! ## A rule for all readers -/

/-- A rule by which everybody may read the shells. -/
def readersRule : Rule :=
  ⟨⟨.allow, Rights.ofList [.read], []⟩, [.route "/shells"], .constant true⟩

/-- A text of this rule, with arrays for the records and a name for the formula. -/
def readersSource : String :=
  "[[[],[],[],[[\"f\",\x7b\"$boolean\":true\x7d]]," ++
    "[[[[],null,[\"READ\"],\"ALLOW\"],null,[\x7b\"ROUTE\":\"/shells\"\x7d],[],null,\"f\"]]]]"

set_option maxRecDepth 10000 in
/-- The rule is loaded, exported, and loaded again; whoever then asks to read gets the same
answer as before. -/
theorem readers_rule_exported :
    rulesOf readersSource = .ok [readersRule] ∧
    rulesOf (exported [readersRule]).compact = .ok [readersRule] ∧
    ∀ (s : Service) request subject now,
      s.run [.reload "export.json" (.ok (exported [readersRule]).compact),
        .decide request subject now] =
      s.run [.reload "rules.json" (.ok readersSource), .decide request subject now] := by
  have hsource : rulesOf readersSource = .ok [readersRule] := rfl
  have hlegible : ∀ r ∈ [readersRule], r.formula.encode.Legible := by
    intro r hr
    rw [List.mem_singleton.mp hr]
    exact legible_keyed (.bool true)
  have hspells := (legible_exported hlegible).spells_compact
  obtain ⟨_, htexts⟩ := export_faithful [readersRule]
  obtain ⟨hloads, hsame⟩ := htexts _ hspells (by decide)
  exact ⟨hsource, hloads, fun s request subject now =>
    hsame readersSource hsource s _ _ [.decide request subject now]⟩

end Document

end AssetAccess
