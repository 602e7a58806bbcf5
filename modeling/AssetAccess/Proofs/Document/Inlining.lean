import AssetAccess.Proofs.Document.Outcome
import Mathlib.Data.List.Nodup
set_option autoImplicit false

/-!
# Documents of one meaning

A document that resolves can be rewritten without a change of its rules: every name may be
replaced by what is defined under it, with no definitions left (`Document.inlined`), and the
definitions of a list may be reordered and joined by others under fresh names
(`Document.Extends`).  Both follow from what a rule denotes, which depends on a document only
through the definitions of the names in the rule.
-/

namespace AssetAccess

/-! ## Inlining -/

namespace Definition

variable {α : Type}

/-- What is defined under some names, joined in order. -/
def joined (ds : List (Definition (List α))) (names : List String) : List α :=
  (names.filterMap fun name => named? name ds).flatten

theorem Named.joined_eq {ds : List (Definition (List α))} {names : List String}
    {values : List (List α)} (h : Named ds names values) : joined ds names = values.flatten := by
  unfold joined
  induction h with
  | nil => rfl
  | cons hname _ ih => rw [List.filterMap_cons, hname, List.flatten_cons, List.flatten_cons, ih]

theorem Taken.eq_some {ds : List (Definition α)} {written : Option α} {name : Option String}
    {a : α} (h : Taken ds written name a) :
    written.or (name.bind fun n => named? n ds) = some a := by
  cases h with
  | written => rfl
  | defined hname => exact hname

end Definition

/-- An entry with its defined attributes written out. -/
def AclEntry.inlined (d : Document) (e : AclEntry) : AclEntry :=
  ⟨e.attributes ++ Definition.joined d.attributes e.useAttributes.toList, none, e.rights,
    e.access⟩

/-- A rule with all its parts written out. -/
def RuleEntry.inlined (d : Document) (e : RuleEntry) : RuleEntry where
  acl := (e.acl.or (e.useAcl.bind fun name => Definition.named? name d.acls)).map
    (AclEntry.inlined d)
  useAcl := none
  targets := e.targets ++ Definition.joined d.targets e.useTargets
  useTargets := []
  formula := e.formula.or (e.useFormula.bind fun name => Definition.named? name d.formulas)
  useFormula := none

/-- A document with all rules written out and no definitions. -/
def Document.inlined (d : Document) : Document :=
  ⟨[], [], [], [], d.rules.map (RuleEntry.inlined d)⟩

theorem AclEntry.Denotes.inlined {d : Document} {e : AclEntry} {acl : Acl}
    (h : e.Denotes d acl) (d' : Document) : (e.inlined d).Denotes d' acl := by
  obtain ⟨defined, hnamed, hattributes⟩ := h.attributes
  refine ⟨h.access, h.rights, [], .nil, ?_⟩
  rw [hattributes, AclEntry.inlined, hnamed.joined_eq, List.flatten_nil, List.append_nil]

/-- A rule that is written out denotes the same in every document. -/
theorem RuleEntry.Denotes.inlined {d : Document} {e : RuleEntry} {r : Rule}
    (h : e.Denotes d r) (d' : Document) : (e.inlined d).Denotes d' r := by
  obtain ⟨a, htaken, hacl⟩ := h.acl
  obtain ⟨defined, hnamed, htargets⟩ := h.targets
  refine ⟨⟨a.inlined d, ?_, hacl.inlined d'⟩, ⟨[], .nil, ?_⟩, ?_⟩
  · have hwritten : (e.inlined d).acl = some (a.inlined d) := by
      rw [RuleEntry.inlined, htaken.eq_some, Option.map_some]
    rw [hwritten]
    exact .written _
  · rw [htargets, RuleEntry.inlined, hnamed.joined_eq, List.flatten_nil, List.append_nil]
  · have hwritten : (e.inlined d).formula = some r.formula := h.formula.eq_some
    rw [hwritten]
    exact .written _

theorem Document.inlined_distinct (d : Document) : d.inlined.Distinct :=
  ⟨.nil, .nil, .nil, .nil⟩

/-! ## Other definitions -/

namespace Definition

variable {α : Type}

/-- A list holds the definitions of another one, in some order, and definitions under names
that are not defined there. -/
def Extends (ds' ds : List (Definition α)) : Prop :=
  ∃ added, ds'.Perm (ds ++ added) ∧ (names added).Nodup ∧
    ∀ name ∈ names added, name ∉ names ds

theorem Extends.refl (ds : List (Definition α)) : Extends ds ds := by
  refine ⟨[], ?_, .nil, ?_⟩
  · rw [List.append_nil]
  · intro name hname
    cases hname

theorem Extends.nodup {ds' ds : List (Definition α)} (h : Extends ds' ds)
    (hdistinct : (names ds).Nodup) : (names ds').Nodup := by
  obtain ⟨added, hperm, hadded, hfresh⟩ := h
  have hnames : (names ds').Perm (names ds ++ names added) := by
    rw [names, names, names, ← List.map_append]
    exact hperm.map Definition.name
  rw [hnames.nodup_iff, List.nodup_append']
  refine ⟨hdistinct, hadded, ?_⟩
  intro name hold hnew
  exact hfresh name hnew hold

/-- What is defined under a name remains so. -/
theorem Extends.named?_eq_some {ds' ds : List (Definition α)} (h : Extends ds' ds)
    (hdistinct : (names ds).Nodup) {name : String} {v : α} (hname : named? name ds = some v) :
    named? name ds' = some v := by
  rw [named?_eq_some_iff (h.nodup hdistinct)]
  rw [named?_eq_some_iff hdistinct] at hname
  obtain ⟨added, hperm, _, _⟩ := h
  exact hperm.mem_iff.mpr (List.mem_append_left added hname)

theorem Extends.named {ds' ds : List (Definition α)} (h : Extends ds' ds)
    (hdistinct : (names ds).Nodup) {ns : List String} {values : List α}
    (hnamed : Named ds ns values) : Named ds' ns values :=
  hnamed.imp fun _ _ hname => h.named?_eq_some hdistinct hname

theorem Extends.taken {ds' ds : List (Definition α)} (h : Extends ds' ds)
    (hdistinct : (names ds).Nodup) {written : Option α} {name : Option String} {a : α}
    (htaken : Taken ds written name a) : Taken ds' written name a := by
  cases htaken with
  | written => exact .written a
  | defined hname => exact .defined (h.named?_eq_some hdistinct hname)

end Definition

/-- A document has the rules of another one, and its definitions extend those of the other. -/
structure Document.Extends (d' d : Document) : Prop where
  attributes : Definition.Extends d'.attributes d.attributes
  acls : Definition.Extends d'.acls d.acls
  targets : Definition.Extends d'.targets d.targets
  formulas : Definition.Extends d'.formulas d.formulas
  rules : d'.rules = d.rules

theorem Document.Extends.distinct {d' d : Document} (h : d'.Extends d) (hd : d.Distinct) :
    d'.Distinct :=
  ⟨h.attributes.nodup hd.attributes, h.acls.nodup hd.acls, h.targets.nodup hd.targets,
    h.formulas.nodup hd.formulas⟩

/-- What a rule denotes does not change with further definitions. -/
theorem RuleEntry.Denotes.extend {d' d : Document} (h : d'.Extends d) (hd : d.Distinct)
    {e : RuleEntry} {r : Rule} (hdenotes : e.Denotes d r) : e.Denotes d' r := by
  obtain ⟨a, htaken, hacl⟩ := hdenotes.acl
  obtain ⟨attributes, hattributes, hjoined⟩ := hacl.attributes
  obtain ⟨targets, htargets, hgathered⟩ := hdenotes.targets
  refine ⟨⟨a, h.acls.taken hd.acls htaken, hacl.access, hacl.rights, attributes, ?_, hjoined⟩,
    ⟨targets, ?_, hgathered⟩, h.formulas.taken hd.formulas hdenotes.formula⟩
  · exact h.attributes.named hd.attributes hattributes
  · exact h.targets.named hd.targets htargets

/-! ## Resolution -/

namespace Document

/-- Resolution yields what the rules of a document denote, one rule for each of them, or
errors.  A document with all rules written out yields the same rules, and so does one with
other definitions beside those of the document. -/
theorem resolution_faithful (d : Document) :
    (∀ rules, d.resolve = .ok rules ↔
      d.Distinct ∧ List.Forall₂ (RuleEntry.Denotes d) d.rules rules) ∧
    (∀ rules, d.resolve = .ok rules → d.inlined.resolve = .ok rules ∧
      ∀ d' : Document, d'.Extends d → d'.resolve = .ok rules) ∧
    (∀ errors, d.resolve = .error errors → errors ≠ []) := by
  refine ⟨resolve_eq_ok_iff d, ?_, ?_⟩
  · intro rules h
    obtain ⟨hdistinct, hrules⟩ := (resolve_eq_ok_iff d rules).mp h
    refine ⟨?_, ?_⟩
    · rw [resolve_eq_ok_iff]
      refine ⟨inlined_distinct d, ?_⟩
      have hinlined : List.Forall₂ (RuleEntry.Denotes d.inlined)
          (d.rules.map (RuleEntry.inlined d)) rules := by
        rw [List.forall₂_map_left_iff]
        exact hrules.imp fun _ _ hdenotes => hdenotes.inlined d.inlined
      exact hinlined
    · intro d' hextends
      rw [resolve_eq_ok_iff, hextends.rules]
      refine ⟨hextends.distinct hdistinct, ?_⟩
      exact hrules.imp fun _ _ hdenotes => hdenotes.extend hextends hdistinct
  · intro errors h
    exact ((resolve_eq_error_iff d errors).mp h).2

/-! ## Shells for the staff -/

/-- A document of one rule whose parts are all named; its list names attributes in turn, and
the same targets are named twice beside one that is written out. -/
def staffDocument : Document where
  attributes := [⟨"guests", []⟩, ⟨"staff", [.claim "role"]⟩]
  acls := [⟨"readers", ⟨[.claim "shift"], some "staff", Rights.ofList [.read], .allow⟩⟩]
  targets := [⟨"shells", [.identifiable "(AAS)*"]⟩]
  formulas := [⟨"always", .constant true⟩]
  rules := [⟨none, some "readers", [.route "/shells"], ["shells", "shells"], none, some "always"⟩]

/-- The same rule, among other definitions in another order. -/
def widenedDocument : Document where
  attributes := [⟨"staff", [.claim "role"]⟩, ⟨"visitors", []⟩, ⟨"guests", []⟩]
  acls := [⟨"readers", ⟨[.claim "shift"], some "staff", Rights.ofList [.read], .allow⟩⟩]
  targets := [⟨"shells", [.identifiable "(AAS)*"]⟩]
  formulas := [⟨"never", .constant false⟩, ⟨"always", .constant true⟩]
  rules := staffDocument.rules

/-- The rule of these documents. -/
def staffRule : Rule :=
  ⟨⟨.allow, Rights.ofList [.read], [.claim "shift", .claim "role"]⟩,
    [.route "/shells", .identifiable "(AAS)*", .identifiable "(AAS)*"], .constant true⟩

theorem widenedDocument_extends : widenedDocument.Extends staffDocument where
  attributes := ⟨[⟨"visitors", []⟩], List.perm_append_singleton _ [_, _],
    List.nodup_singleton _, by simp [Definition.names, staffDocument]⟩
  acls := .refl _
  targets := .refl _
  formulas := ⟨[⟨"never", .constant false⟩], .swap _ _ _, List.nodup_singleton _,
    by simp [Definition.names, staffDocument]⟩
  rules := rfl

/-- All three ways to write the rule resolve to it. -/
theorem staff_documents_resolve :
    staffDocument.resolve = .ok [staffRule] ∧ staffDocument.inlined.resolve = .ok [staffRule] ∧
    widenedDocument.resolve = .ok [staffRule] := by
  have hresolves : staffDocument.resolve = .ok [staffRule] := rfl
  obtain ⟨_, hsame, _⟩ := resolution_faithful staffDocument
  obtain ⟨hinlined, hextended⟩ := hsame [staffRule] hresolves
  exact ⟨hresolves, hinlined, hextended widenedDocument widenedDocument_extends⟩

end Document

end AssetAccess
