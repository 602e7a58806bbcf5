import AssetAccess.Decision.Decide
set_option autoImplicit false

/-!
# What a decision means

A decision looks at rules one at a time: it is positive exactly when one of them grants
the request by itself (`Rule.Grants`), in the attributes that are resolved for that rule
alone.  So only the set of the rules matters, not their order or number, and rules that
can never grant anything may be left out.
-/

namespace AssetAccess

/-! ## Which rules grant a request -/

/-- The target of a rule takes in the target of a request: it is the same route, the same
identifiable, or the wildcard where the request is about an identifiable. -/
inductive Target.Covers : Target → Target → Prop where
  | route (path : String) : Covers (.route path) (.route path)
  | identifiable (id : String) : Covers (.identifiable id) (.identifiable id)
  | anyIdentifiable (id : String) : Covers (.identifiable "(AAS)*") (.identifiable id)

/-- What it takes for a rule to grant a request of a subject at a time. -/
structure Rule.Grants (r : Rule) (q : Request) (claims : Claims) (clock : Clock) : Prop where
  allows : r.acl.access = .allow
  /-- The very right is listed; no other one stands for it. -/
  right_mem : q.right ∈ r.acl.rights.members
  covers : ∃ t, r.targets = [t] ∧ t.Covers q.target
  /-- The formula holds in what is resolved for this rule. -/
  formula_holds :
    r.formula.holds
      ⟨q.targetAttributes,
        Resolved.ofAttributes claims clock (r.acl.attributes ++ r.formula.attributes)⟩ = true

/-- A rule without effect: it denies, or it does not name exactly one target, or it names
one of a kind that no request is granted on. -/
inductive Rule.Idle (r : Rule) : Prop where
  | denies : r.acl.access = .deny → Idle r
  | targets : r.targets.length ≠ 1 → Idle r
  | referable (id : String) : r.targets = [.referable id] → Idle r
  | fragment (id : String) : r.targets = [.fragment id] → Idle r
  | descriptor (id : String) : r.targets = [.descriptor id] → Idle r

/-- A rule without effect grants nothing. -/
theorem Rule.Idle.not_grants {r : Rule} (h : r.Idle) {q : Request} {claims : Claims}
    {clock : Clock} : ¬ r.Grants q claims clock := by
  intro hgrants
  obtain ⟨t, htargets, hcovers⟩ := hgrants.covers
  cases h with
  | denies hdeny => rw [hgrants.allows] at hdeny; cases hdeny
  | targets hlength => rw [htargets] at hlength; exact hlength rfl
  | referable id ht | fragment id ht | descriptor id ht =>
      rw [htargets, List.cons.injEq] at ht
      rw [ht.1] at hcovers
      cases hcovers

/-- A rule applies to a target exactly when it names one target, which covers it. -/
theorem Rule.appliesTo_iff (r : Rule) (target : Target) :
    r.appliesTo target = true ↔ ∃ t, r.targets = [t] ∧ t.Covers target := by
  unfold Rule.appliesTo
  constructor
  · intro h
    split at h
    · rename_i path ht
      split at h
      · rename_i wanted
        rw [of_decide_eq_true h] at ht
        exact ⟨_, ht, .route wanted⟩
      · cases h
    · rename_i id ht
      split at h
      · rename_i wanted
        rw [Bool.or_eq_true, decide_eq_true_eq, decide_eq_true_eq] at h
        rcases h with hany | hsame
        · rw [hany] at ht
          exact ⟨_, ht, .anyIdentifiable wanted⟩
        · rw [hsame] at ht
          exact ⟨_, ht, .identifiable wanted⟩
      · cases h
    · cases h
  · rintro ⟨t, ht, hcovers⟩
    rw [ht]
    cases hcovers with
    | route path => simp
    | identifiable id => simp
    | anyIdentifiable id => simp [Target.anyIdentifiable]

/-- The candidates of a request that hold are the rules that grant it. -/
theorem Request.mem_candidates_and_holds_iff (q : Request) (rules : List Rule)
    (claims : Claims) (clock : Clock) (r : Rule) :
    (r ∈ q.candidates rules ∧ r.holds claims clock q.targetAttributes = true) ↔
      r ∈ rules ∧ r.Grants q claims clock := by
  simp only [Request.candidates, applicable, List.mem_filter, Bool.and_eq_true,
    decide_eq_true_eq, Rights.grants, Rule.appliesTo_iff]
  constructor
  · rintro ⟨⟨⟨hmem, hallow, hright⟩, hcovers⟩, hholds⟩
    exact ⟨hmem, hallow, hright, hcovers, hholds⟩
  · rintro ⟨hmem, hallow, hright, hcovers, hholds⟩
    exact ⟨⟨⟨hmem, hallow, hright⟩, hcovers⟩, hholds⟩

/-! ## Decisions -/

namespace Request

variable (q : Request) (claims : Claims) (clock : Clock)

/-- A request is granted exactly when one of the rules grants it. -/
theorem grantedTo_iff (rules : List Rule) :
    q.grantedTo rules claims clock = true ↔ ∃ r ∈ rules, r.Grants q claims clock := by
  rw [grantedTo, List.any_eq_true]
  constructor
  · rintro ⟨r, hr⟩
    exact ⟨r, (q.mem_candidates_and_holds_iff rules claims clock r).mp hr⟩
  · rintro ⟨r, hr⟩
    exact ⟨r, (q.mem_candidates_and_holds_iff rules claims clock r).mpr hr⟩

/-- Two lists of rules of which the same rules grant a request decide it alike. -/
theorem grantedTo_congr {rules rules' : List Rule}
    (h : (∃ r ∈ rules, r.Grants q claims clock) ↔ ∃ r ∈ rules', r.Grants q claims clock) :
    q.grantedTo rules claims clock = q.grantedTo rules' claims clock := by
  rw [Bool.eq_iff_iff, grantedTo_iff, grantedTo_iff]
  exact h

theorem grantedTo_append (rules rules' : List Rule) :
    q.grantedTo (rules ++ rules') claims clock =
      (q.grantedTo rules claims clock || q.grantedTo rules' claims clock) := by
  simp [grantedTo, candidates, applicable]

/-- Rules without effect may be left out. -/
theorem grantedTo_filter {rules : List Rule} {keep : Rule → Bool}
    (h : ∀ r ∈ rules, keep r = false → r.Idle) :
    q.grantedTo (rules.filter keep) claims clock = q.grantedTo rules claims clock := by
  apply grantedTo_congr
  constructor
  · rintro ⟨r, hr, hgrants⟩
    exact ⟨r, (List.mem_filter.mp hr).1, hgrants⟩
  · rintro ⟨r, hr, hgrants⟩
    cases hkeep : keep r with
    | true => exact ⟨r, List.mem_filter.mpr ⟨hr, hkeep⟩, hgrants⟩
    | false => exact absurd hgrants (h r hr hkeep).not_grants

theorem decide_some (rules : List Rule) :
    q.decide rules (some claims) clock = .ok (q.grantedTo rules claims clock) := rfl

theorem decide_eq_ok_true_iff (rules : List Rule) :
    q.decide rules (some claims) clock = .ok true ↔ ∃ r ∈ rules, r.Grants q claims clock := by
  rw [decide_some, Except.ok.injEq, grantedTo_iff]

/-- Only a subject is missing where a request is refused. -/
theorem decide_eq_noSubject_iff (rules : List Rule) (subject : Option Claims) :
    q.decide rules subject clock = .error .noSubject ↔ subject = none := by
  cases subject with
  | none => simp [decide]
  | some claims => simp [decide]

theorem decideAt_eq_noSubject_iff (rules : List Rule) (subject : Option Claims)
    (now : Timestamp) : q.decideAt rules subject now = .error .noSubject ↔ subject = none := by
  cases subject with
  | none => simp [decideAt]
  | some claims =>
      simp only [decideAt]
      split
      · simp
      · simp [decide]

/-- At an instant whose date in UTC is in the calendar, the decision is that of the clock
standing there. -/
theorem decideAt_of_utcDateSupported {now : Timestamp} (h : now.utcDateSupported = true)
    (rules : List Rule) (subject : Option Claims) :
    q.decideAt rules subject now = q.decide rules subject (Clock.ofTimestamp now) := by
  cases subject with
  | none => rfl
  | some claims => simp [decideAt, h]

/-- The exact meaning of a decision.  Whatever the rules and the time, a request is refused
for want of a subject exactly when it has none.  With a subject there is a decision, and it
is positive exactly when some rule grants the request.  Hence the decision over two lists
is positive when one of theirs is, the order and the number of the rules do not matter,
further rules never turn a positive decision, and rules without effect may be left out.
At an instant whose date in UTC is in the calendar, the decision is that of its clock. -/
theorem decision_exact :
    (∀ rules subject, q.decide rules subject clock = .error .noSubject ↔ subject = none) ∧
    (∀ rules, ∃ granted, q.decide rules (some claims) clock = .ok granted) ∧
    (∀ rules, q.decide rules (some claims) clock = .ok true ↔
      ∃ r ∈ rules, r.Grants q claims clock) ∧
    (∀ rules rules' granted granted',
      q.decide rules (some claims) clock = .ok granted →
      q.decide rules' (some claims) clock = .ok granted' →
      q.decide (rules ++ rules') (some claims) clock = .ok (granted || granted')) ∧
    (∀ rules rules', (∀ r, r ∈ rules ↔ r ∈ rules') →
      q.decide rules (some claims) clock = q.decide rules' (some claims) clock) ∧
    (∀ rules rules', (∀ r ∈ rules, r ∈ rules') →
      q.decide rules (some claims) clock = .ok true →
      q.decide rules' (some claims) clock = .ok true) ∧
    (∀ rules keep, (∀ r ∈ rules, keep r = false → r.Idle) →
      q.decide (rules.filter keep) (some claims) clock =
        q.decide rules (some claims) clock) ∧
    (∀ (now : Timestamp) (rules : List Rule) (subject : Option Claims),
      (q.decideAt rules subject now = .error .noSubject ↔ subject = none) ∧
      (now.utcDateSupported = true →
        q.decideAt rules subject now = q.decide rules subject (Clock.ofTimestamp now))) := by
  refine ⟨fun rules subject => q.decide_eq_noSubject_iff clock rules subject,
    fun rules => ⟨_, q.decide_some claims clock rules⟩,
    fun rules => q.decide_eq_ok_true_iff claims clock rules, ?_, ?_, ?_, ?_, ?_⟩
  · intro rules rules' granted granted' hgranted hgranted'
    rw [decide_some, Except.ok.injEq] at hgranted hgranted'
    rw [decide_some, grantedTo_append, hgranted, hgranted']
  · intro rules rules' hsame
    have hgrants : (∃ r ∈ rules, r.Grants q claims clock) ↔
        ∃ r ∈ rules', r.Grants q claims clock := by simp only [hsame]
    rw [decide_some, decide_some, q.grantedTo_congr claims clock hgrants]
  · intro rules rules' hsub hgranted
    rw [decide_eq_ok_true_iff] at hgranted ⊢
    obtain ⟨r, hr, hgrants⟩ := hgranted
    exact ⟨r, hsub r hr, hgrants⟩
  · intro rules keep hidle
    rw [decide_some, decide_some, q.grantedTo_filter claims clock hidle]
  · intro now rules subject
    exact ⟨q.decideAt_eq_noSubject_iff rules subject now,
      fun hnow => q.decideAt_of_utcDateSupported hnow rules subject⟩

end Request

/-! ## An engineer reads a shell -/

/-- The department may read every shell. -/
def departmentRule : Rule :=
  ⟨⟨.allow, Rights.ofList [.read, .all], []⟩, [.identifiable "(AAS)*"],
    .comparison .eq [.attribute (.claim "department"), .text "engineering"]⟩

/-- Nobody may read a shell, says a rule without effect. -/
def denyingRule : Rule :=
  ⟨⟨.deny, Rights.ofList [.read], []⟩, [.identifiable "(AAS)*"], .constant true⟩

/-- A request to read one shell. -/
def readRequest : Request := ⟨.read, .identifiable "(AAS)42", []⟩

/-- The claims of an engineer. -/
def engineerClaims : Claims := [("department", .string "engineering")]

/-- An engineer reads the shell, in whatever order the two rules stand and however often,
with the denying rule or without it, and at the beginning of 1970. -/
theorem engineer_reads_shell :
    (∀ r, r ∈ [denyingRule, departmentRule] ↔
      r ∈ [departmentRule, denyingRule, departmentRule]) ∧
    (∀ r ∈ [denyingRule, departmentRule],
      decide (r.acl.access = .allow) = false → r.Idle) ∧
    Timestamp.epoch.utcDateSupported = true ∧
    readRequest.decideAt [departmentRule, denyingRule, departmentRule] (some engineerClaims)
      .epoch = .ok true ∧
    readRequest.decide ([denyingRule, departmentRule].filter fun r =>
      decide (r.acl.access = .allow)) (some engineerClaims) (.ofTimestamp .epoch) = .ok true := by
  have hsame : ∀ r, r ∈ [denyingRule, departmentRule] ↔
      r ∈ [departmentRule, denyingRule, departmentRule] := by
    intro r
    simp only [List.mem_cons, List.not_mem_nil, or_false]
    constructor
    · rintro (h | h)
      · exact .inr (.inl h)
      · exact .inl h
    · rintro (h | h | h)
      · exact .inr h
      · exact .inl h
      · exact .inr h
  have hidle : ∀ r ∈ [denyingRule, departmentRule],
      decide (r.acl.access = .allow) = false → r.Idle := by
    intro r _ hdeny
    refine .denies ?_
    cases haccess : r.acl.access with
    | allow => rw [haccess] at hdeny; cases hdeny
    | deny => rfl
  have hgranted : readRequest.decide [denyingRule, departmentRule] (some engineerClaims)
      (.ofTimestamp .epoch) = .ok true := rfl
  obtain ⟨_, _, _, _, hreorder, _, hfilter, hat⟩ :=
    Request.decision_exact readRequest engineerClaims (.ofTimestamp .epoch)
  refine ⟨hsame, hidle, rfl, ?_, ?_⟩
  · rw [(hat .epoch _ _).2 rfl, ← hreorder _ _ hsame]
    exact hgranted
  · rw [hfilter _ _ hidle]
    exact hgranted

end AssetAccess
