import AssetAccess.Proofs.Document.Outcome
import Mathlib.Data.List.Count
set_option autoImplicit false

/-!
# The report on a document

What is wrong with a document is one list, in a fixed order (`Document.report`): the names
that are defined again, list by list, and then the faults of each rule under its index, those
of its access control list before those of its targets and of its formula.  A document does
not resolve exactly when the list is not empty, and then the list is what is returned
(`report_exact`).  The part of the list that belongs to a rule is determined by the rule and
the definitions.
-/

namespace AssetAccess

open Definition Document

/-! ## Names that are defined again -/

namespace Definition

/-- The names that stand earlier in the list as well, each time they do. -/
def redefined (ns : List String) : List String :=
  (ns.zipIdx.filter fun p => decide (p.1 ∈ ns.take p.2)).map Prod.fst

/-- Reading on behind some names that were read in any order. -/
theorem repeated_eq_filter_zipIdx (before earlier ns : List String)
    (hearlier : ∀ n, n ∈ earlier ↔ n ∈ before) :
    repeated earlier ns =
      ((ns.zipIdx before.length).filter fun p =>
        decide (p.1 ∈ (before ++ ns).take p.2)).map Prod.fst := by
  induction ns generalizing before earlier with
  | nil => rfl
  | cons n ns ih =>
      have hnext : ∀ m, m ∈ n :: earlier ↔ m ∈ before ++ [n] := by
        intro m
        rw [List.mem_cons, List.mem_append, List.mem_singleton, hearlier, or_comm]
      have hrest := ih (before ++ [n]) (n :: earlier) hnext
      rw [List.length_append, List.length_singleton, List.append_assoc,
        List.singleton_append] at hrest
      have hbefore : (before ++ n :: ns).take before.length = before := List.take_left
      rw [repeated, List.zipIdx_cons, List.filter_cons]
      simp only [hbefore]
      by_cases h : n ∈ before
      · simp [h, hearlier, hrest]
      · simp [h, hearlier, hrest]

theorem repeated_eq_redefined (ns : List String) : repeated [] ns = redefined ns :=
  repeated_eq_filter_zipIdx [] [] ns fun _ => Iff.rfl

theorem count_repeated (earlier ns : List String) (name : String) :
    (repeated earlier ns).count name =
      if name ∈ earlier then ns.count name else ns.count name - 1 := by
  induction ns generalizing earlier with
  | nil => simp [repeated]
  | cons n ns ih =>
      rw [repeated]
      by_cases hname : n = name
      · subst hname
        by_cases h : n ∈ earlier
        · simp [h, ih]
        · simp [h, ih]
      · have hother : ¬ name = n := fun heq => hname heq.symm
        by_cases h : n ∈ earlier
        · simp [h, ih, hother, List.count_cons_of_ne hname]
        · simp [h, ih, hother, List.count_cons_of_ne hname]

/-- Of a name that is defined several times all definitions but one are reported. -/
theorem count_redefined (ns : List String) (name : String) :
    (redefined ns).count name = ns.count name - 1 := by
  rw [← repeated_eq_redefined, count_repeated, if_neg List.not_mem_nil]

end Definition

/-! ## The faults of a rule -/

/-- The attributes that an access control list names are not defined. -/
def AclEntry.report (d : Document) (a : AclEntry) : List Fault :=
  match a.useAttributes with
  | some name => if name ∈ names d.attributes then [] else [.unknownAttributes name]
  | none => []

namespace RuleEntry

/-- What is wrong with the access control list of a rule: there is not exactly one, it is not
defined, or its attributes are not. -/
def aclReport (d : Document) (e : RuleEntry) : List Fault :=
  match e.acl, e.useAcl with
  | some _, some _ => [.ambiguous .acl]
  | none, none => [.noAcl]
  | some a, none => a.report d
  | none, some name =>
    match named? name d.acls with
    | some a => a.report d
    | none => [.unknownAcl name]

/-- The targets that a rule names and that are not defined. -/
def targetsReport (d : Document) (e : RuleEntry) : List Fault :=
  (e.useTargets.filter fun name => decide (name ∉ names d.targets)).map .unknownTargets

/-- What is wrong with the formula of a rule: there is not exactly one, or it is not defined. -/
def formulaReport (d : Document) (e : RuleEntry) : List Fault :=
  match e.formula, e.useFormula with
  | some _, some _ => [.ambiguous .formula]
  | none, none => [.noFormula]
  | some _, none => []
  | none, some name => if name ∈ names d.formulas then [] else [.unknownFormula name]

/-- All that is wrong with a rule. -/
def report (d : Document) (e : RuleEntry) : List Fault :=
  e.aclReport d ++ e.targetsReport d ++ e.formulaReport d

end RuleEntry

namespace Document

/-- All that is wrong with a document. -/
def report (d : Document) : List Error :=
  ([names d.attributes, names d.acls, names d.targets, names d.formulas].flatMap redefined).map
      (fun name => ⟨none, .redefined name⟩) ++
    d.rules.zipIdx.flatMap fun p => (p.1.report d).map fun f => ⟨some p.2, f⟩

/-- The faults that are reported at the rule with a given index. -/
def faultsAt (i : Nat) (errors : List Error) : List Fault :=
  errors.filterMap fun x => if x.rule = some i then some x.fault else none

/-! ## What is found is what is wrong -/

theorem faults_completeAcl (d : Document) (a : AclEntry) :
    (completeAcl d.tables.value a).faults = a.report d := by
  rw [completeAcl, AclEntry.report]
  cases a.useAttributes with
  | none => rfl
  | some name =>
      simp only [first?_tables_attributes]
      cases hdefined : named? name d.attributes with
      | none =>
          rw [named?_eq_none_iff] at hdefined
          rw [if_neg hdefined]
      | some attributes => rw [if_pos (mem_names_of_named?_eq_some hdefined)]

/-- The two steps by which an access control list is found have one list of faults. -/
theorem faults_acl (d : Document) (e : RuleEntry) :
    (aclEntryOf d.tables.value e).faults ++ (aclOf d.tables.value e).faults =
      e.aclReport d := by
  rw [aclOf, aclEntryOf, RuleEntry.aclReport]
  cases hacl : e.acl with
  | some a =>
      cases huse : e.useAcl with
      | some name => rfl
      | none => exact faults_completeAcl d a
  | none =>
      cases huse : e.useAcl with
      | none => rfl
      | some name =>
          simp only [select, first?_tables_acls]
          cases named? name d.acls with
          | none => rfl
          | some a => exact faults_completeAcl d a

theorem faults_targetsOf (d : Document) (e : RuleEntry) :
    (targetsOf d.tables.value e).faults = e.targetsReport d := by
  have hundefined (name : String) :
      (Table.first? name d.tables.value.targets).isNone = decide (name ∉ names d.targets) := by
    rw [first?_tables_targets, Bool.eq_iff_iff, Option.isNone_iff_eq_none,
      named?_eq_none_iff, decide_eq_true_iff]
  rw [targetsOf, foldl_addTargets, RuleEntry.targetsReport, List.nil_append]
  simp only [hundefined]

theorem faults_formulaOf (d : Document) (e : RuleEntry) :
    (formulaOf d.tables.value e).faults = e.formulaReport d := by
  rw [formulaOf, RuleEntry.formulaReport]
  cases hformula : e.formula with
  | some f => cases e.useFormula <;> rfl
  | none =>
      cases huse : e.useFormula with
      | none => rfl
      | some name =>
          simp only [select, first?_tables_formulas]
          cases hdefined : named? name d.formulas with
          | none =>
              rw [named?_eq_none_iff] at hdefined
              rw [if_neg hdefined]
          | some f => rw [if_pos (mem_names_of_named?_eq_some hdefined)]

theorem ruleFaults_eq_report (d : Document) (e : RuleEntry) :
    ruleFaults d.tables.value e = e.report d := by
  rw [ruleFaults, RuleEntry.report, faults_acl, faults_targetsOf, faults_formulaOf]

theorem errorsFrom_eq_flatMap (t : Tables) (i : Nat) (es : List RuleEntry) :
    errorsFrom t i es =
      (es.zipIdx i).flatMap fun p => (ruleFaults t p.1).map fun f => ⟨some p.2, f⟩ := by
  induction es generalizing i with
  | nil => rfl
  | cons e es ih => rw [errorsFrom, ih, List.zipIdx_cons, List.flatMap_cons]

theorem errors_eq_report (d : Document) : d.errors = d.report := by
  have htables : d.tables.faults =
      ([names d.attributes, names d.acls, names d.targets, names d.formulas].flatMap
        redefined).map Fault.redefined := by
    simp only [tables, faults_tabulate, repeated_eq_redefined, List.flatMap_cons,
      List.flatMap_nil, List.map_append, List.append_assoc, List.append_nil]
  rw [errors, report, htables, List.map_map, errorsFrom_eq_flatMap]
  simp only [ruleFaults_eq_report]
  rfl

/-! ## How often, and where -/

theorem AclEntry.length_report_le (d : Document) (a : AclEntry) : (a.report d).length ≤ 1 := by
  rw [AclEntry.report]
  cases a.useAttributes with
  | none => exact Nat.zero_le 1
  | some name => dsimp only; split <;> simp

theorem length_aclReport_le (d : Document) (e : RuleEntry) : (e.aclReport d).length ≤ 1 := by
  rw [RuleEntry.aclReport]
  split
  · exact Nat.le_refl 1
  · exact Nat.le_refl 1
  · exact AclEntry.length_report_le d _
  · split
    · exact AclEntry.length_report_le d _
    · exact Nat.le_refl 1

theorem length_formulaReport_le (d : Document) (e : RuleEntry) :
    (e.formulaReport d).length ≤ 1 := by
  rw [RuleEntry.formulaReport]
  split
  · exact Nat.le_refl 1
  · exact Nat.le_refl 1
  · exact Nat.zero_le 1
  · split <;> simp

/-- A name is reported as often as it is defined again in one of the four lists. -/
theorem count_redefined_report (d : Document) (name : String) :
    d.report.count ⟨none, .redefined name⟩ =
      ((names d.attributes).count name - 1) + ((names d.acls).count name - 1) +
        ((names d.targets).count name - 1) + ((names d.formulas).count name - 1) := by
  have hinjective : Function.Injective fun n => (⟨none, .redefined n⟩ : Error) := by
    intro n m h
    cases h
    rfl
  have hrules : (d.rules.zipIdx.flatMap fun p => (p.1.report d).map fun f =>
      (⟨some p.2, f⟩ : Error)).count ⟨none, .redefined name⟩ = 0 := by
    rw [List.count_eq_zero]
    simp
  rw [report, List.count_append, List.count_map_of_injective _ _ hinjective, hrules]
  simp only [List.flatMap_cons, List.flatMap_nil, List.append_nil, List.count_append,
    count_redefined, Nat.add_assoc, Nat.add_zero]

theorem faultsAt_append (i : Nat) (xs ys : List Error) :
    faultsAt i (xs ++ ys) = faultsAt i xs ++ faultsAt i ys := List.filterMap_append

/-- Errors under one index are all at the rule with this index. -/
theorem faultsAt_map (i k : Nat) (fs : List Fault) :
    faultsAt i (fs.map fun f => ⟨some k, f⟩) = if k = i then fs else [] := by
  rw [faultsAt, List.filterMap_map]
  by_cases h : k = i
  · simp [h]
  · simp [h]

/-- Where the first rule has the index `k`, the errors at the index `j` are those of the rule in
place `j - k`, and there are none at an index below `k`. -/
theorem faultsAt_zipIdx (d : Document) (k j : Nat) (es : List RuleEntry) :
    faultsAt j ((es.zipIdx k).flatMap fun p => (p.1.report d).map fun f => ⟨some p.2, f⟩) =
      if k ≤ j then (es[j - k]?.map (RuleEntry.report d)).getD [] else [] := by
  induction es generalizing k with
  | nil => split <;> rfl
  | cons e es ih =>
      rw [List.zipIdx_cons, List.flatMap_cons, faultsAt_append, faultsAt_map, ih]
      rcases Nat.lt_trichotomy j k with hbelow | rfl | habove
      · have hk : ¬ k ≤ j := by omega
        have hnext : ¬ k + 1 ≤ j := by omega
        have hother : ¬ k = j := by omega
        rw [if_neg hk, if_neg hnext, if_neg hother]
        rfl
      · have hnext : ¬ j + 1 ≤ j := by omega
        rw [if_pos rfl, if_neg hnext, if_pos (Nat.le_refl j), Nat.sub_self, List.append_nil]
        rfl
      · have hk : k ≤ j := by omega
        have hnext : k + 1 ≤ j := habove
        have hother : ¬ k = j := by omega
        have hplace : j - k = j - (k + 1) + 1 := by omega
        rw [if_pos hk, if_pos hnext, if_neg hother, hplace, List.getElem?_cons_succ]
        rfl

/-- The faults at an index are those of the rule with the index. -/
theorem faultsAt_report (d : Document) (i : Nat) :
    faultsAt i d.report = (d.rules[i]?.map (RuleEntry.report d)).getD [] := by
  have hnames (ns : List String) :
      faultsAt i (ns.map fun name => ⟨none, .redefined name⟩) = [] := by
    rw [faultsAt, List.filterMap_eq_nil_iff]
    simp
  rw [report, faultsAt_append, hnames, faultsAt_zipIdx, if_pos (Nat.zero_le i)]
  rfl

/-- One rule with a fault is enough for a report. -/
theorem report_ne_nil_of_mem {d : Document} {e : RuleEntry} (he : e ∈ d.rules)
    (h : e.report d ≠ []) : d.report ≠ [] := by
  obtain ⟨i, hi⟩ := List.getElem?_of_mem he
  have hfaults := faultsAt_report d i
  rw [hi] at hfaults
  intro hempty
  rw [hempty] at hfaults
  exact h hfaults.symm

/-- A document does not resolve exactly if its report is not empty, and the report is then what
is returned.  In it a name is reported once for each definition of a list behind the first one
of the same list; a rule has at most one fault of its access control list and at most one of its
formula; and the faults of a rule are determined by the rule and the definitions, whatever
rules stand beside it. -/
theorem report_exact (d : Document) :
    (∀ errors, d.resolve = .error errors ↔ errors = d.report ∧ d.report ≠ []) ∧
    (∀ name, d.report.count ⟨none, .redefined name⟩ =
      ((names d.attributes).count name - 1) + ((names d.acls).count name - 1) +
        ((names d.targets).count name - 1) + ((names d.formulas).count name - 1)) ∧
    (∀ e : RuleEntry, (e.aclReport d).length ≤ 1 ∧ (e.formulaReport d).length ≤ 1) ∧
    (∀ rules i, faultsAt i { d with rules := rules }.report =
      (rules[i]?.map (RuleEntry.report d)).getD []) := by
  refine ⟨?_, count_redefined_report d, ?_, ?_⟩
  · intro errors
    rw [resolve_eq_error_iff, errors_eq_report]
    constructor
    · rintro ⟨rfl, hne⟩
      exact ⟨rfl, hne⟩
    · rintro ⟨rfl, hne⟩
      exact ⟨rfl, hne⟩
  · intro e
    exact ⟨length_aclReport_le d e, length_formulaReport_le d e⟩
  · intro rules i
    exact faultsAt_report { d with rules := rules } i

/-! ## A document with faults of every kind -/

/-- A document that defines `guests` in two lists and thrice in one of them, and whose three
rules are ambiguous, dangling, and without any part. -/
def muddledDocument : Document where
  attributes := [⟨"guests", []⟩, ⟨"staff", []⟩, ⟨"guests", []⟩, ⟨"guests", []⟩]
  acls := [⟨"guests", ⟨[], some "nobody", Rights.ofList [.read], .allow⟩⟩]
  targets := []
  formulas := []
  rules :=
    [⟨some ⟨[], none, Rights.ofList [.read], .deny⟩, some "guests", [], [], none, some "never"⟩,
     ⟨none, some "guests", [], ["shells", "models", "shells"], some (.constant true), none⟩,
     ⟨none, none, [], [], none, none⟩]

example : muddledDocument.resolve = .error
    [⟨none, .redefined "guests"⟩, ⟨none, .redefined "guests"⟩,
     ⟨some 0, .ambiguous .acl⟩, ⟨some 0, .unknownFormula "never"⟩,
     ⟨some 1, .unknownAttributes "nobody"⟩, ⟨some 1, .unknownTargets "shells"⟩,
     ⟨some 1, .unknownTargets "models"⟩, ⟨some 1, .unknownTargets "shells"⟩,
     ⟨some 2, .noAcl⟩, ⟨some 2, .noFormula⟩] := rfl

end Document

end AssetAccess
