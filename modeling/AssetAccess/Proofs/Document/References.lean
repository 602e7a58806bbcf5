import AssetAccess.Proofs.Document.Outcome
set_option autoImplicit false

/-!
# References and what is reported of them

A document mentions names in five places (`Document.Mentions`): a rule may name its access
control list, targets and its formula, and a list may name attributes, whether it is written
out in a rule or defined under a name.  Resolution looks up a name only on the way to a rule
(`RuleEntry.Follows`).  What is reported is exactly what is wrong with the names of the
definitions and on the way to the rules (`mem_errors_iff`); a dangling name elsewhere is
reported nowhere, and a document can resolve in spite of it.
-/

namespace AssetAccess

open Definition

/-! ## References -/

/-- A name that stands for a definition of one of the four lists. -/
inductive Reference where
  | attributes (name : String)
  | acl (name : String)
  | targets (name : String)
  | formula (name : String)

/-- What is reported where nothing is defined under the name. -/
def Reference.fault : Reference → Document.Fault
  | .attributes name => .unknownAttributes name
  | .acl name => .unknownAcl name
  | .targets name => .unknownTargets name
  | .formula name => .unknownFormula name

theorem Reference.fault_inj {ref ref' : Reference} (h : ref.fault = ref'.fault) : ref = ref' := by
  cases ref <;> cases ref' <;> cases h <;> rfl

/-- A document defines what a reference stands for. -/
def Document.Defines (d : Document) : Reference → Prop
  | .attributes name => name ∈ names d.attributes
  | .acl name => name ∈ names d.acls
  | .targets name => name ∈ names d.targets
  | .formula name => name ∈ names d.formulas

/-- A reference stands in a rule. -/
inductive RuleEntry.Mentions (e : RuleEntry) : Reference → Prop where
  | acl {name : String} : e.useAcl = some name → Mentions e (.acl name)
  | attributes {a : AclEntry} {name : String} :
      e.acl = some a → a.useAttributes = some name → Mentions e (.attributes name)
  | targets {name : String} : name ∈ e.useTargets → Mentions e (.targets name)
  | formula {name : String} : e.useFormula = some name → Mentions e (.formula name)

/-- A reference stands anywhere in a document. -/
inductive Document.Mentions (d : Document) : Reference → Prop where
  | rule {e : RuleEntry} {ref : Reference} :
      e ∈ d.rules → e.Mentions ref → Mentions d ref
  | definition {definition : Definition AclEntry} {name : String} :
      definition ∈ d.acls → definition.value.useAttributes = some name →
        Mentions d (.attributes name)

/-- A reference is looked up on the way to a rule: a part is looked up where it is not written
out as well, and attributes are looked up for the list that is taken. -/
inductive RuleEntry.Follows (d : Document) (e : RuleEntry) : Reference → Prop where
  | acl {name : String} : e.acl = none → e.useAcl = some name → Follows d e (.acl name)
  | attributes {a : AclEntry} {name : String} :
      Taken d.acls e.acl e.useAcl a → a.useAttributes = some name →
        Follows d e (.attributes name)
  | targets {name : String} : name ∈ e.useTargets → Follows d e (.targets name)
  | formula {name : String} :
      e.formula = none → e.useFormula = some name → Follows d e (.formula name)

/-! ## Errors -/

/-- A fault is one of a rule. -/
inductive RuleEntry.HasFault (d : Document) (e : RuleEntry) : Document.Fault → Prop where
  | dangling {ref : Reference} : e.Follows d ref → ¬ d.Defines ref → HasFault d e ref.fault
  | noAcl : e.acl = none → e.useAcl = none → HasFault d e .noAcl
  | ambiguousAcl : e.acl.isSome → e.useAcl.isSome → HasFault d e (.ambiguous .acl)
  | noFormula : e.formula = none → e.useFormula = none → HasFault d e .noFormula
  | ambiguousFormula :
      e.formula.isSome → e.useFormula.isSome → HasFault d e (.ambiguous .formula)

/-- A dangling reference is a fault of a rule only if it is looked up. -/
theorem RuleEntry.HasFault.follows {d : Document} {e : RuleEntry} {ref : Reference}
    (h : e.HasFault d ref.fault) : e.Follows d ref := by
  generalize hf : ref.fault = f at h
  cases h with
  | dangling hfollows _ =>
      rw [Reference.fault_inj hf]
      exact hfollows
  | noAcl => cases ref <;> cases hf
  | ambiguousAcl => cases ref <;> cases hf
  | noFormula => cases ref <;> cases hf
  | ambiguousFormula => cases ref <;> cases hf

/-- An error is one of a document: of a name that is defined again, or of a rule, at its
index. -/
inductive Document.HasError (d : Document) : Document.Error → Prop where
  | redefined {name : String} : d.Redefines name → HasError d ⟨none, .redefined name⟩
  | rule {i : Nat} {e : RuleEntry} {f : Document.Fault} :
      d.rules[i]? = some e → e.HasFault d f → HasError d ⟨some i, f⟩

namespace Document

variable {α : Type}

/-- What may be wrong with a part of a rule. -/
theorem mem_faults_select_iff {ds : List (Definition α)} {table : List (String × α)}
    (htable : ∀ name, Table.first? name table = named? name ds)
    (written : Option α) (name : Option String) (missing : Fault) (unknown : String → Fault)
    (part : Part) (f : Fault) :
    f ∈ (select written name table missing unknown part).faults ↔
      (∃ n, written = none ∧ name = some n ∧ n ∉ names ds ∧ f = unknown n) ∨
      (written = none ∧ name = none ∧ f = missing) ∨
      (written.isSome ∧ name.isSome ∧ f = .ambiguous part) := by
  cases written with
  | some w =>
      cases name with
      | none => simp [select]
      | some n => simp [select]
  | none =>
      cases name with
      | none => simp [select]
      | some n =>
          rw [select, htable]
          cases hn : named? n ds with
          | none =>
              rw [named?_eq_none_iff] at hn
              simp [hn]
          | some v =>
              have hdefined : n ∈ names ds := by
                by_contra h
                rw [← named?_eq_none_iff, hn] at h
                cases h
              simp [hdefined]

theorem mem_faults_completeAcl_iff (d : Document) (a : AclEntry) (f : Fault) :
    f ∈ (completeAcl d.tables.value a).faults ↔
      ∃ name, a.useAttributes = some name ∧ name ∉ names d.attributes ∧
        f = .unknownAttributes name := by
  unfold completeAcl
  cases huse : a.useAttributes with
  | none => simp
  | some name =>
      simp only [first?_tables_attributes, ← named?_eq_none_iff]
      cases hdefined : named? name d.attributes with
      | none => simp [hdefined]
      | some attributes => simp [hdefined]

theorem value_aclEntryOf_eq_some_iff (d : Document) (e : RuleEntry) (a : AclEntry) :
    (aclEntryOf d.tables.value e).value = some a ↔ Taken d.acls e.acl e.useAcl a := by
  rw [← select_eq_iff (first?_tables_acls d) e.acl e.useAcl .noAcl .unknownAcl .acl]
  constructor
  · exact select_of_value
  · intro h
    rw [aclEntryOf, h]

/-- What may be wrong with the list of a rule: the list that is taken may name attributes that
are not defined. -/
theorem mem_faults_aclOf_iff (d : Document) (e : RuleEntry) (f : Fault) :
    f ∈ (aclOf d.tables.value e).faults ↔
      ∃ a name, Taken d.acls e.acl e.useAcl a ∧ a.useAttributes = some name ∧
        name ∉ names d.attributes ∧ f = .unknownAttributes name := by
  unfold aclOf
  cases hentry : (aclEntryOf d.tables.value e).value with
  | none =>
      have hnone (a : AclEntry) : ¬ Taken d.acls e.acl e.useAcl a := by
        rw [← value_aclEntryOf_eq_some_iff, hentry]
        intro h
        cases h
      simp [hnone]
  | some a =>
      have htaken (a' : AclEntry) : Taken d.acls e.acl e.useAcl a' ↔ a = a' := by
        rw [← value_aclEntryOf_eq_some_iff, hentry, Option.some.injEq]
      simp [htaken, mem_faults_completeAcl_iff]

theorem mem_faults_targetsOf_iff (d : Document) (e : RuleEntry) (f : Fault) :
    f ∈ (targetsOf d.tables.value e).faults ↔
      ∃ name, name ∈ e.useTargets ∧ name ∉ names d.targets ∧ f = .unknownTargets name := by
  rw [targetsOf, foldl_addTargets, List.nil_append, List.mem_map]
  simp only [List.mem_filter, first?_tables_targets, Option.isNone_iff_eq_none,
    named?_eq_none_iff, and_assoc]
  simp only [eq_comm]

/-- All that is wrong with a rule is found. -/
theorem mem_ruleFaults_iff (d : Document) (e : RuleEntry) (f : Fault) :
    f ∈ ruleFaults d.tables.value e ↔ e.HasFault d f := by
  have hentry := mem_faults_select_iff (first?_tables_acls d) e.acl e.useAcl .noAcl .unknownAcl
    .acl f
  have hformula := mem_faults_select_iff (first?_tables_formulas d) e.formula e.useFormula
    .noFormula .unknownFormula .formula f
  simp only [ruleFaults, List.mem_append, aclEntryOf, formulaOf, hentry, hformula,
    mem_faults_aclOf_iff, mem_faults_targetsOf_iff, or_assoc]
  constructor
  · rintro (⟨name, hwritten, hname, hundefined, rfl⟩ | ⟨hwritten, hname, rfl⟩ |
      ⟨hwritten, hname, rfl⟩ | ⟨a, name, htaken, hname, hundefined, rfl⟩ |
      ⟨name, hname, hundefined, rfl⟩ | ⟨name, hwritten, hname, hundefined, rfl⟩ |
      ⟨hwritten, hname, rfl⟩ | ⟨hwritten, hname, rfl⟩)
    · exact .dangling (.acl hwritten hname) hundefined
    · exact .noAcl hwritten hname
    · exact .ambiguousAcl hwritten hname
    · exact .dangling (.attributes htaken hname) hundefined
    · exact .dangling (.targets hname) hundefined
    · exact .dangling (.formula hwritten hname) hundefined
    · exact .noFormula hwritten hname
    · exact .ambiguousFormula hwritten hname
  · intro h
    cases h with
    | dangling hfollows hundefined =>
        rw [Defines.eq_def] at hundefined
        cases hfollows with
        | acl hwritten hname => simp [Reference.fault, hwritten, hname, hundefined]
        | attributes htaken hname =>
            have hlooked : ∃ a, Taken d.acls e.acl e.useAcl a ∧ a.useAttributes = some _ :=
              ⟨_, htaken, hname⟩
            simp [Reference.fault, hlooked, hundefined]
        | targets hname => simp [Reference.fault, hname, hundefined]
        | formula hwritten hname => simp [Reference.fault, hwritten, hname, hundefined]
    | noAcl hwritten hname => simp [hwritten, hname]
    | ambiguousAcl hwritten hname => simp [hwritten, hname]
    | noFormula hwritten hname => simp [hwritten, hname]
    | ambiguousFormula hwritten hname => simp [hwritten, hname]

/-- The errors of rules carry the indices of the rules. -/
theorem mem_errorsFrom_iff (t : Tables) (i : Nat) (es : List RuleEntry) (x : Error) :
    x ∈ errorsFrom t i es ↔
      ∃ k e f, es[k]? = some e ∧ f ∈ ruleFaults t e ∧ x = ⟨some (i + k), f⟩ := by
  induction es generalizing i with
  | nil => simp [errorsFrom]
  | cons e es ih =>
      rw [errorsFrom, List.mem_append, List.mem_map, ih]
      constructor
      · rintro (⟨f, hf, rfl⟩ | ⟨k, e', f, he, hf, rfl⟩)
        · exact ⟨0, e, f, rfl, hf, rfl⟩
        · refine ⟨k + 1, e', f, he, hf, ?_⟩
          rw [Nat.add_right_comm, Nat.add_assoc]
      · rintro ⟨k, e', f, he, hf, rfl⟩
        cases k with
        | zero =>
            cases he
            exact .inl ⟨f, hf, rfl⟩
        | succ k =>
            refine .inr ⟨k, e', f, he, hf, ?_⟩
            rw [Nat.add_right_comm, Nat.add_assoc]

/-- The errors of a document are all that is wrong with it. -/
theorem mem_errors_iff (d : Document) (x : Error) : x ∈ d.errors ↔ d.HasError x := by
  rw [errors, List.mem_append, List.mem_map, mem_errorsFrom_iff]
  simp only [mem_faults_tables_iff, mem_ruleFaults_iff, Nat.zero_add]
  constructor
  · rintro (⟨f, ⟨name, hname, rfl⟩, rfl⟩ | ⟨i, e, f, he, hf, rfl⟩)
    · exact .redefined hname
    · exact .rule he hf
  · intro h
    cases h with
    | redefined hname => exact .inl ⟨_, ⟨_, hname, rfl⟩, rfl⟩
    | rule he hf => exact .inr ⟨_, _, _, he, hf, rfl⟩

/-- A dangling reference is reported at a rule exactly if it is looked up for the rule, and it
is then reported together with all other errors of the document. -/
theorem dangling_reported_iff (d : Document) (ref : Reference) (hdangling : ¬ d.Defines ref) :
    (∀ i, (∃ errors, d.resolve = .error errors ∧ ⟨some i, ref.fault⟩ ∈ errors) ↔
      ∃ e, d.rules[i]? = some e ∧ e.Follows d ref) ∧
    (∀ errors, d.resolve = .error errors → ∀ x, x ∈ errors ↔ d.HasError x) := by
  refine ⟨?_, ?_⟩
  · intro i
    constructor
    · rintro ⟨errors, herror, hmem⟩
      obtain ⟨rfl, _⟩ := (resolve_eq_error_iff d errors).mp herror
      rw [mem_errors_iff] at hmem
      cases hmem with
      | rule he hfault => exact ⟨_, he, hfault.follows⟩
    · rintro ⟨e, he, hfollows⟩
      have hmem : ⟨some i, ref.fault⟩ ∈ d.errors :=
        (mem_errors_iff d _).mpr (.rule he (.dangling hfollows hdangling))
      exact ⟨d.errors, (resolve_eq_error_iff d _).mpr ⟨rfl, List.ne_nil_of_mem hmem⟩, hmem⟩
  · intro errors herror x
    obtain ⟨rfl, _⟩ := (resolve_eq_error_iff d errors).mp herror
    exact mem_errors_iff d x

/-! ## Nobody's attributes -/

/-- A list whose attributes are those of nobody. -/
def nobodyAcl : AclEntry := ⟨[], some "nobody", Rights.ofList [.read], .allow⟩

/-- A document with a definition that no rule uses, and no rules. -/
def idleDocument : Document := ⟨[], [⟨"idle", nobodyAcl⟩], [], [], []⟩

/-- A dangling reference need not be reported: one in a definition that no rule uses is passed
over, and the document resolves. -/
theorem idle_reference_unreported :
    ¬ (∀ (d : Document) (ref : Reference), d.Mentions ref → ¬ d.Defines ref →
        ∃ errors rule, d.resolve = .error errors ∧ ⟨rule, ref.fault⟩ ∈ errors) ∧
    idleDocument.resolve = .ok [] := by
  have hresolves : idleDocument.resolve = .ok [] := rfl
  refine ⟨?_, hresolves⟩
  intro h
  have hmentions : idleDocument.Mentions (.attributes "nobody") :=
    .definition List.mem_cons_self rfl
  have hdangling : ¬ idleDocument.Defines (.attributes "nobody") := List.not_mem_nil
  obtain ⟨errors, _, herror, _⟩ := h idleDocument _ hmentions hdangling
  rw [hresolves] at herror
  cases herror

/-- A document with one list under three circumstances: written out in a rule, written out in
a rule that names another list as well, and defined for no rule. -/
def nobodyDocument : Document where
  attributes := []
  acls := [⟨"idle", nobodyAcl⟩]
  targets := []
  formulas := []
  rules := [⟨some nobodyAcl, none, [], [], none, none⟩,
    ⟨some nobodyAcl, some "idle", [], [], some (.constant true), none⟩]

/-- The reference of the list is reported where the list is taken, and not where the rule is
ambiguous. -/
theorem nobody_reported_where_taken :
    ¬ nobodyDocument.Defines (.attributes "nobody") ∧
    (∃ errors, nobodyDocument.resolve = .error errors ∧
      ⟨some 0, .unknownAttributes "nobody"⟩ ∈ errors) ∧
    ¬ (∃ errors, nobodyDocument.resolve = .error errors ∧
      ⟨some 1, .unknownAttributes "nobody"⟩ ∈ errors) := by
  have hdangling : ¬ nobodyDocument.Defines (.attributes "nobody") := List.not_mem_nil
  obtain ⟨hreported, _⟩ := dangling_reported_iff nobodyDocument (.attributes "nobody") hdangling
  refine ⟨hdangling, (hreported 0).mpr ⟨_, rfl, .attributes (.written _) rfl⟩, ?_⟩
  intro h
  obtain ⟨e, he, hfollows⟩ := (hreported 1).mp h
  cases he
  cases hfollows with
  | attributes htaken _ => cases htaken

end Document

end AssetAccess
