import AssetAccess.Proofs.Document.Tables
import Mathlib.Data.List.Forall2
set_option autoImplicit false

/-!
# The outcome of resolving a document

What a rule as written stands for is said here without the pass that resolves it
(`RuleEntry.Denotes`): its parts are the written ones or those that are defined under a name,
and lists of definitions are appended in the order in which they are named.  One rule is
resolved without faults exactly to what it denotes (`resolveRule_eq_iff`), the errors of a
document are those of its lists and then those of its rules in order (`resolve_eq`), and so a
document resolves exactly when its names are distinct and each of its rules denotes something
(`resolve_eq_ok_iff`).
-/

namespace AssetAccess

/-! ## What is written -/

/-- What is defined under each of some names, in order. -/
def Definition.Named {α : Type} (ds : List (Definition α)) (names : List String)
    (values : List α) : Prop :=
  List.Forall₂ (fun name v => named? name ds = some v) names values

section Named

variable {α : Type} (ds : List (Definition α))

theorem Definition.named_nil_iff (values : List α) : Named ds [] values ↔ values = [] :=
  List.forall₂_nil_left_iff

theorem Definition.named_cons_iff (name : String) (names : List String) (values : List α) :
    Named ds (name :: names) values ↔
      ∃ v, named? name ds = some v ∧ ∃ rest, Named ds names rest ∧ values = v :: rest := by
  rw [Named, List.forall₂_cons_left_iff]
  constructor
  · rintro ⟨v, rest, hname, hrest, hvalues⟩
    exact ⟨v, hname, rest, hrest, hvalues⟩
  · rintro ⟨v, hname, rest, hrest, hvalues⟩
    exact ⟨v, rest, hname, hrest, hvalues⟩

theorem Definition.named_singleton_iff (name : String) (values : List α) :
    Named ds [name] values ↔ ∃ v, named? name ds = some v ∧ values = [v] := by
  simp only [named_cons_iff, named_nil_iff, exists_eq_left]

end Named

/-- A part of a rule that is written out and not named, or named, and defined, and not written
out. -/
inductive Definition.Taken {α : Type} (ds : List (Definition α)) :
    Option α → Option String → α → Prop where
  | written (a : α) : Taken ds (some a) none a
  | defined {name : String} {a : α} : named? name ds = some a → Taken ds none (some name) a

/-- The access control list that an entry of a document denotes. -/
structure AclEntry.Denotes (d : Document) (e : AclEntry) (acl : Acl) : Prop where
  access : acl.access = e.access
  rights : acl.rights = e.rights
  attributes : ∃ defined, Definition.Named d.attributes e.useAttributes.toList defined ∧
    acl.attributes = e.attributes ++ defined.flatten

theorem AclEntry.denotes_iff (d : Document) (e : AclEntry) (acl : Acl) :
    e.Denotes d acl ↔ ∃ defined, Definition.Named d.attributes e.useAttributes.toList defined ∧
      acl = ⟨e.access, e.rights, e.attributes ++ defined.flatten⟩ := by
  obtain ⟨access, rights, attributes⟩ := acl
  constructor
  · rintro ⟨haccess, hrights, defined, hnamed, hattributes⟩
    cases haccess
    cases hrights
    cases hattributes
    exact ⟨defined, hnamed, rfl⟩
  · rintro ⟨defined, hnamed, hsame⟩
    cases hsame
    exact ⟨rfl, rfl, defined, hnamed, rfl⟩

/-- The rule that an entry of a document denotes. -/
structure RuleEntry.Denotes (d : Document) (e : RuleEntry) (r : Rule) : Prop where
  acl : ∃ a, Definition.Taken d.acls e.acl e.useAcl a ∧ a.Denotes d r.acl
  targets : ∃ defined, Definition.Named d.targets e.useTargets defined ∧
    r.targets = e.targets ++ defined.flatten
  formula : Definition.Taken d.formulas e.formula e.useFormula r.formula

namespace Document

open Definition

variable {α : Type}

/-! ## The parts of one rule -/

/-- A selected part without a fault is the part that is taken. -/
theorem select_eq_iff {ds : List (Definition α)} {table : List (String × α)}
    (htable : ∀ name, Table.first? name table = named? name ds)
    (written : Option α) (name : Option String) (missing : Fault) (unknown : String → Fault)
    (part : Part) (a : α) :
    select written name table missing unknown part = ⟨[], some a⟩ ↔
      Taken ds written name a := by
  constructor
  · intro h
    cases written with
    | some w =>
        cases name with
        | none =>
            cases h
            exact .written _
        | some n => cases h
    | none =>
        cases name with
        | none => cases h
        | some n =>
            rw [select, htable] at h
            cases hn : named? n ds with
            | none =>
                rw [hn] at h
                cases h
            | some v =>
                rw [hn] at h
                cases h
                exact .defined hn
  · intro h
    cases h with
    | written => rfl
    | defined hn =>
        rw [select, htable, hn]

section Select

variable {written : Option α} {name : Option String} {table : List (String × α)}
  {missing : Fault} {unknown : String → Fault} {part : Part}

/-- A part is selected, or there is one fault. -/
theorem select_cases :
    (∃ a, select written name table missing unknown part = ⟨[], some a⟩) ∨
      ∃ f, select written name table missing unknown part = ⟨[f], none⟩ := by
  cases written with
  | some w =>
      cases name with
      | none => exact .inl ⟨w, rfl⟩
      | some n => exact .inr ⟨_, rfl⟩
  | none =>
      cases name with
      | none => exact .inr ⟨_, rfl⟩
      | some n =>
          rw [select]
          cases Table.first? n table with
          | none => exact .inr ⟨_, rfl⟩
          | some v => exact .inl ⟨v, rfl⟩

theorem select_of_no_faults
    (h : (select written name table missing unknown part).faults = []) :
    ∃ a, select written name table missing unknown part = ⟨[], some a⟩ := by
  rcases select_cases with hselected | ⟨f, hf⟩
  · exact hselected
  · rw [hf] at h
    cases h

theorem select_of_value {a : α}
    (h : (select written name table missing unknown part).value = some a) :
    select written name table missing unknown part = ⟨[], some a⟩ := by
  rcases select_cases with ⟨a', ha'⟩ | ⟨f, hf⟩
  · rw [ha'] at h ⊢
    rw [← h]
  · rw [hf] at h
    cases h

end Select

/-- The list of an entry is completed, without a fault, exactly to what the entry denotes. -/
theorem completeAcl_eq_iff (d : Document) (a : AclEntry) (acl : Acl) :
    completeAcl d.tables.value a = ⟨[], acl⟩ ↔ a.Denotes d acl := by
  rw [AclEntry.denotes_iff, completeAcl]
  cases huse : a.useAttributes with
  | none =>
      simp only [Option.toList_none, named_nil_iff, exists_eq_left, List.flatten_nil,
        List.append_nil, Checked.mk.injEq, true_and]
      exact eq_comm
  | some name =>
      simp only [Option.toList_some, named_singleton_iff, first?_tables_attributes]
      cases hdefined : named? name d.attributes with
      | none => simp
      | some attributes =>
          simp only [Option.some.injEq, exists_eq_left', exists_eq_left, List.flatten_singleton,
            Checked.mk.injEq, true_and]
          exact eq_comm

/-- Targets are gathered name by name: each adds what is defined under it, or a fault. -/
theorem foldl_addTargets (t : Tables) (names : List String) (c : Checked (List Target)) :
    names.foldl (Checked.addTargets t) c =
      ⟨c.faults ++ (names.filter fun n => (Table.first? n t.targets).isNone).map
          Fault.unknownTargets,
        c.value ++ names.flatMap fun n => (Table.first? n t.targets).getD []⟩ := by
  induction names generalizing c with
  | nil => simp
  | cons n names ih =>
      rw [List.foldl_cons, ih, Checked.addTargets]
      cases h : Table.first? n t.targets with
      | none => simp [h]
      | some targets => simp [h]

theorem foldl_addTargets_eq_iff (d : Document) (names : List String)
    (own targets : List Target) :
    names.foldl (Checked.addTargets d.tables.value) ⟨[], own⟩ = ⟨[], targets⟩ ↔
      ∃ defined, Named d.targets names defined ∧ targets = own ++ defined.flatten := by
  induction names generalizing own with
  | nil =>
      simp only [List.foldl_nil, named_nil_iff, exists_eq_left, List.flatten_nil,
        List.append_nil, Checked.mk.injEq, true_and]
      exact eq_comm
  | cons n names ih =>
      rw [List.foldl_cons, Checked.addTargets, first?_tables_targets]
      simp only [named_cons_iff]
      cases hn : named? n d.targets with
      | none =>
          rw [foldl_addTargets]
          simp
      | some added =>
          rw [ih]
          constructor
          · rintro ⟨rest, hrest, htargets⟩
            refine ⟨added :: rest, ⟨added, rfl, rest, hrest, rfl⟩, ?_⟩
            rw [htargets, List.flatten_cons, List.append_assoc]
          · rintro ⟨_, ⟨_, hadded, rest, hrest, rfl⟩, htargets⟩
            cases hadded
            refine ⟨rest, hrest, ?_⟩
            rw [htargets, List.flatten_cons, List.append_assoc]

/-! ## One rule -/

/-- The access control list of a rule, written out or named. -/
def aclEntryOf (t : Tables) (e : RuleEntry) : Checked (Option AclEntry) :=
  select e.acl e.useAcl t.acls .noAcl .unknownAcl .acl

/-- The list of a rule with its attributes, as far as there is one. -/
def aclOf (t : Tables) (e : RuleEntry) : Checked (Option Acl) :=
  match (aclEntryOf t e).value with
  | some a => ⟨(completeAcl t a).faults, some (completeAcl t a).value⟩
  | none => ⟨[], none⟩

/-- The targets of a rule. -/
def targetsOf (t : Tables) (e : RuleEntry) : Checked (List Target) :=
  e.useTargets.foldl (Checked.addTargets t) ⟨[], e.targets⟩

/-- The formula of a rule, written out or named. -/
def formulaOf (t : Tables) (e : RuleEntry) : Checked (Option Formula) :=
  select e.formula e.useFormula t.formulas .noFormula .unknownFormula .formula

/-- All that is wrong with a rule. -/
def ruleFaults (t : Tables) (e : RuleEntry) : List Fault :=
  (aclEntryOf t e).faults ++ (aclOf t e).faults ++ (targetsOf t e).faults ++
    (formulaOf t e).faults

theorem resolveRule_eq (t : Tables) (e : RuleEntry) :
    resolveRule t e =
      match ruleFaults t e, (aclOf t e).value, (formulaOf t e).value with
      | [], some a, some f => ⟨[], some ⟨a, (targetsOf t e).value, f⟩⟩
      | faults, _, _ => ⟨faults, none⟩ := rfl

theorem faults_resolveRule (t : Tables) (e : RuleEntry) :
    (resolveRule t e).faults = ruleFaults t e := by
  rw [resolveRule_eq]
  split
  · rename_i h _ _
    exact h.symm
  · rfl

theorem ruleFaults_eq_nil_iff (t : Tables) (e : RuleEntry) :
    ruleFaults t e = [] ↔ (aclEntryOf t e).faults = [] ∧ (aclOf t e).faults = [] ∧
      (targetsOf t e).faults = [] ∧ (formulaOf t e).faults = [] := by
  simp only [ruleFaults, List.append_eq_nil_iff, and_assoc]

theorem aclOf_eq_completeAcl {t : Tables} {e : RuleEntry} {fs : List Fault} {a : AclEntry}
    (h : aclEntryOf t e = ⟨fs, some a⟩) :
    aclOf t e = ⟨(completeAcl t a).faults, some (completeAcl t a).value⟩ := by
  rw [aclOf, h]

/-- The parts of a rule are found without faults. -/
structure Complete (t : Tables) (e : RuleEntry) (r : Rule) : Prop where
  acl : ∃ a, aclEntryOf t e = ⟨[], some a⟩ ∧ completeAcl t a = ⟨[], r.acl⟩
  targets : targetsOf t e = ⟨[], r.targets⟩
  formula : formulaOf t e = ⟨[], some r.formula⟩

theorem Complete.resolveRule_eq {t : Tables} {e : RuleEntry} {r : Rule} (h : Complete t e r) :
    resolveRule t e = ⟨[], some r⟩ := by
  obtain ⟨⟨a, ha, hcomplete⟩, htargets, hformula⟩ := h
  have hacl : aclOf t e = ⟨[], some r.acl⟩ := by
    rw [aclOf_eq_completeAcl ha, hcomplete]
  have hfaults : ruleFaults t e = [] := by
    rw [ruleFaults, ha, hacl, htargets, hformula]
    rfl
  rw [Document.resolveRule_eq, hfaults, hacl, htargets, hformula]

/-- A rule without faults has all its parts. -/
theorem exists_complete (t : Tables) (e : RuleEntry) (h : ruleFaults t e = []) :
    ∃ r, Complete t e r := by
  obtain ⟨hentry, hacl, htargets, hformula⟩ := (ruleFaults_eq_nil_iff t e).mp h
  obtain ⟨a, ha⟩ := select_of_no_faults hentry
  obtain ⟨f, hf⟩ := select_of_no_faults hformula
  rw [aclOf_eq_completeAcl ha] at hacl
  refine ⟨⟨(completeAcl t a).value, (targetsOf t e).value, f⟩, ⟨a, ha, ?_⟩, ?_, hf⟩
  · rw [← hacl]
  · rw [← htargets]

theorem resolveRule_eq_iff_complete (t : Tables) (e : RuleEntry) (r : Rule) :
    resolveRule t e = ⟨[], some r⟩ ↔ Complete t e r := by
  constructor
  · intro h
    have hfaults : ruleFaults t e = [] := by rw [← faults_resolveRule, h]
    obtain ⟨r', hcomplete⟩ := exists_complete t e hfaults
    have hvalue := hcomplete.resolveRule_eq
    rw [h] at hvalue
    cases hvalue
    exact hcomplete
  · exact Complete.resolveRule_eq

/-- A rule is resolved, without faults, exactly to what it denotes. -/
theorem resolveRule_eq_iff (d : Document) (e : RuleEntry) (r : Rule) :
    resolveRule d.tables.value e = ⟨[], some r⟩ ↔ e.Denotes d r := by
  have hacl (a : AclEntry) : aclEntryOf d.tables.value e = ⟨[], some a⟩ ↔
      Taken d.acls e.acl e.useAcl a :=
    select_eq_iff (fun name => first?_tables_acls d name) ..
  have hformula : formulaOf d.tables.value e = ⟨[], some r.formula⟩ ↔
      Taken d.formulas e.formula e.useFormula r.formula :=
    select_eq_iff (fun name => first?_tables_formulas d name) ..
  have htargets : targetsOf d.tables.value e = ⟨[], r.targets⟩ ↔
      ∃ defined, Named d.targets e.useTargets defined ∧
        r.targets = e.targets ++ defined.flatten :=
    foldl_addTargets_eq_iff d ..
  rw [resolveRule_eq_iff_complete]
  constructor
  · rintro ⟨⟨a, ha, hcomplete⟩, hgathered, htaken⟩
    exact ⟨⟨a, (hacl a).mp ha, (completeAcl_eq_iff d a r.acl).mp hcomplete⟩,
      htargets.mp hgathered, hformula.mp htaken⟩
  · rintro ⟨⟨a, ha, hdenotes⟩, hgathered, htaken⟩
    exact ⟨⟨a, (hacl a).mpr ha, (completeAcl_eq_iff d a r.acl).mpr hdenotes⟩,
      htargets.mpr hgathered, hformula.mpr htaken⟩

/-! ## The pass over the rules -/

/-- The errors of rules, the first of which has a given index. -/
def errorsFrom (t : Tables) : Nat → List RuleEntry → List Error
  | _, [] => []
  | i, e :: es => ((ruleFaults t e).map fun f => ⟨some i, f⟩) ++ errorsFrom t (i + 1) es

theorem foldl_step (t : Tables) (es : List RuleEntry) (p : Pass) :
    es.foldl (Pass.step t) p =
      ⟨p.errors ++ errorsFrom t p.next es,
        p.rules ++ es.filterMap fun e => (resolveRule t e).value, p.next + es.length⟩ := by
  induction es generalizing p with
  | nil => simp [errorsFrom]
  | cons e es ih =>
      rw [List.foldl_cons, ih, Pass.step, errorsFrom, faults_resolveRule]
      cases h : (resolveRule t e).value with
      | none => simp [h, Nat.add_assoc, Nat.add_comm 1]
      | some r => simp [h, Nat.add_assoc, Nat.add_comm 1]

/-- The rules are resolved one by one, if none of them has a fault. -/
theorem filterMap_resolveRule_eq_iff (t : Tables) (i : Nat) (es : List RuleEntry)
    (rules : List Rule) :
    (errorsFrom t i es = [] ∧ (es.filterMap fun e => (resolveRule t e).value) = rules) ↔
      List.Forall₂ (fun e r => resolveRule t e = ⟨[], some r⟩) es rules := by
  induction es generalizing i rules with
  | nil => simp [errorsFrom, eq_comm]
  | cons e es ih =>
      rw [errorsFrom, List.append_eq_nil_iff, List.map_eq_nil_iff, ← faults_resolveRule]
      constructor
      · rintro ⟨⟨hfaults, herrors⟩, hrules⟩
        rw [faults_resolveRule] at hfaults
        obtain ⟨r, hcomplete⟩ := exists_complete t e hfaults
        have hr := hcomplete.resolveRule_eq
        rw [List.filterMap_cons, hr] at hrules
        rw [← hrules]
        exact .cons hr ((ih (i + 1) _).mp ⟨herrors, rfl⟩)
      · intro h
        cases h with
        | cons hr hrest =>
            obtain ⟨herrors, hrules⟩ := (ih (i + 1) _).mpr hrest
            refine ⟨⟨by rw [hr], herrors⟩, ?_⟩
            rw [List.filterMap_cons, hr, hrules]

/-! ## The document -/

/-- All that is wrong with a document: first its lists of definitions, then its rules. -/
def errors (d : Document) : List Error :=
  (d.tables.faults.map fun f => ⟨none, f⟩) ++ errorsFrom d.tables.value 0 d.rules

theorem resolve_eq (d : Document) :
    d.resolve =
      if d.errors = [] then
        .ok (d.rules.filterMap fun e => (resolveRule d.tables.value e).value)
      else .error d.errors := by
  simp only [resolve, foldl_step, List.isEmpty_iff, List.nil_append]
  rfl

/-- A document that does not resolve has errors. -/
theorem resolve_eq_error_iff (d : Document) (es : List Error) :
    d.resolve = .error es ↔ es = d.errors ∧ es ≠ [] := by
  rw [resolve_eq]
  by_cases h : d.errors = []
  · rw [if_pos h]
    constructor
    · intro hok
      cases hok
    · rintro ⟨rfl, hne⟩
      exact absurd h hne
  · rw [if_neg h]
    constructor
    · intro herror
      cases herror
      exact ⟨rfl, h⟩
    · rintro ⟨rfl, _⟩
      rfl

/-- A document resolves exactly when no name is defined twice in a list and each rule denotes
something, and then to what the rules denote. -/
theorem resolve_eq_ok_iff (d : Document) (rules : List Rule) :
    d.resolve = .ok rules ↔
      d.Distinct ∧ List.Forall₂ (RuleEntry.Denotes d) d.rules rules := by
  have hpass := filterMap_resolveRule_eq_iff d.tables.value 0 d.rules rules
  have hdenotes : List.Forall₂ (RuleEntry.Denotes d) d.rules rules ↔
      List.Forall₂ (fun e r => resolveRule d.tables.value e = ⟨[], some r⟩) d.rules rules := by
    constructor
    · exact List.Forall₂.imp fun e r => (resolveRule_eq_iff d e r).mpr
    · exact List.Forall₂.imp fun e r => (resolveRule_eq_iff d e r).mp
  rw [hdenotes, ← hpass, ← faults_tables_eq_nil_iff, resolve_eq]
  by_cases h : d.errors = []
  · have hparts := h
    rw [errors, List.append_eq_nil_iff, List.map_eq_nil_iff] at hparts
    rw [if_pos h, Except.ok.injEq]
    exact ⟨fun hrules => ⟨hparts.1, hparts.2, hrules⟩, fun hall => hall.2.2⟩
  · rw [if_neg h]
    constructor
    · intro herror
      cases herror
    · rintro ⟨htables, herrors, _⟩
      refine absurd ?_ h
      rw [errors, htables, herrors]
      rfl

end Document

end AssetAccess
