import AssetAccess.Proofs.Decision.Resolution
set_option autoImplicit false

/-!
# What a decision depends on

A formula asks for the attributes and the fields that are written in it, and for nothing
else.  Of a claim it sees what the path of the claim leads to, of a field what the target
has under its path, and of the time the hour and the minute.  So it has one value for two
requests that it cannot tell apart (`Formula.SeesAlike`, `Timestamp.SameMinuteOfDay`), and
a decision over rules is the same for two requests that no formula of a rule can tell
apart, whatever else is different between them (`decision_noninterference`).
-/

namespace AssetAccess

/-! ## What a formula sees -/

/-- A formula sees the same of two subjects and of what is known of two targets: its claims
lead to the same values, and its fields have the same values. -/
structure Formula.SeesAlike (f : Formula) (claims claims' : Claims)
    (target target' : TargetAttributes) : Prop where
  claim : ∀ path, .claim path ∈ f.attributes → claims.lookup? path = claims'.lookup? path
  field : ∀ path ∈ f.fields, Table.last? path target = Table.last? path target'

/-- Two instants have the same hour and minute, both where they are written and in UTC. -/
structure Timestamp.SameMinuteOfDay (t t' : Timestamp) : Prop where
  hour : t.time.hour = t'.time.hour
  minute : t.time.minute = t'.time.minute
  utcHour : t.utcMinuteOfDay.hour = t'.utcMinuteOfDay.hour
  utcMinute : t.utcMinuteOfDay.minute = t'.utcMinuteOfDay.minute

/-- To the minute, two such instants have the same time of day, wherever it is asked for. -/
theorem Timestamp.SameMinuteOfDay.globalTime?_eq {t t' : Timestamp} (h : t.SameMinuteOfDay t')
    (g : Global) : t.globalTime? g = t'.globalTime? g := by
  have hlocal : t.time.toMinute = t'.time.toMinute := by
    rw [TimeOfDay.toMinute, TimeOfDay.toMinute, TimeOfDay.mk.injEq]
    exact ⟨h.hour, h.minute, rfl⟩
  have hutc : t.utcMinuteOfDay = t'.utcMinuteOfDay := by
    rw [← TimeOfDay.seconds_inj, TimeOfDay.seconds, TimeOfDay.seconds, h.utcHour, h.utcMinute]
    rfl
  cases g with
  | localNow => rw [Timestamp.globalTime?, Timestamp.globalTime?, hlocal]
  | utcNow => rw [Timestamp.globalTime?, Timestamp.globalTime?, hutc]
  | clientNow | anonymous => rfl

section TwoRequests

variable {claims claims' : Claims} {now now' : Timestamp}

/-- A formula has one value for two requests that it cannot tell apart. -/
theorem Formula.SeesAlike.holdsDirectly_eq {f : Formula} {target target' : TargetAttributes}
    (hseen : f.SeesAlike claims claims' target target') (hnow : now.SameMinuteOfDay now') :
    f.holdsDirectly target claims now = f.holdsDirectly target' claims' now' := by
  unfold Formula.holdsDirectly
  apply Formula.truth_congr
  intro op operands hleaf
  apply Sources.testAll_congr op
  · intro o ho path hpath
    exact hseen.field path (hleaf.field_mem ho hpath)
  · intro o ho a ha
    have hmem := hleaf.attribute_mem ho ha
    cases a with
    | claim path => exact hseen.claim path hmem
    | global g => exact hnow.globalTime?_eq g
    | reference name => trivial

/-! ## What a decision sees -/

variable {q q' : Request}

/-- So a rule grants both of them or neither. -/
theorem Rule.grants_congr {r : Rule} (hright : q.right = q'.right) (htarget : q.target = q'.target)
    (hseen : r.formula.SeesAlike claims claims' q.targetAttributes q'.targetAttributes)
    (hnow : now.SameMinuteOfDay now') :
    r.Grants q claims (.ofTimestamp now) ↔ r.Grants q' claims' (.ofTimestamp now') := by
  have hvalue := hseen.holdsDirectly_eq hnow
  unfold Formula.holdsDirectly at hvalue
  rw [Rule.grants_iff_direct, Rule.grants_iff_direct, time?_ofTimestamp, time?_ofTimestamp, hvalue,
    hright, htarget]

/-- And a request is granted over some rules exactly when the other one is. -/
theorem Request.grantedTo_congr_of_seesAlike {rules : List Rule} (hright : q.right = q'.right)
    (htarget : q.target = q'.target)
    (hseen : ∀ r ∈ rules,
      r.formula.SeesAlike claims claims' q.targetAttributes q'.targetAttributes)
    (hnow : now.SameMinuteOfDay now') :
    q.grantedTo rules claims (.ofTimestamp now) =
      q'.grantedTo rules claims' (.ofTimestamp now') := by
  rw [Bool.eq_iff_iff, grantedTo_iff, grantedTo_iff]
  apply exists_congr
  intro r
  apply and_congr_right
  intro hr
  exact Rule.grants_congr hright htarget (hseen r hr) hnow

/-- Two requests for one right on one target are decided alike, if no formula of a rule can tell
them apart: the claims that it names lead to the same values, the fields that it names have the
same values, and the two instants have the same hour and minute, in UTC and where they are
written.  All else may differ: other claims, other attributes of the target, the attributes
that the rules declare, the dates, the seconds and their fractions. -/
theorem decision_noninterference {rules rules' : List Rule} (hrules : SameButDeclared rules rules')
    (hright : q.right = q'.right) (htarget : q.target = q'.target)
    (hseen : ∀ r ∈ rules,
      r.formula.SeesAlike claims claims' q.targetAttributes q'.targetAttributes)
    (hminute : now.SameMinuteOfDay now') (hnow : now.utcDateSupported = true)
    (hnow' : now'.utcDateSupported = true) :
    ∃ granted, q.decideAt rules (some claims) now = .ok granted ∧
      q'.decideAt rules' (some claims') now' = .ok granted := by
  refine ⟨q.grantedTo rules claims (.ofTimestamp now), ?_, ?_⟩
  · rw [q.decideAt_of_utcDateSupported hnow]
    exact q.decide_some claims _ rules
  · rw [q'.decideAt_of_utcDateSupported hnow', ← hrules.decide_eq, q'.decide_some,
      Request.grantedTo_congr_of_seesAlike hright htarget hseen hminute]

end TwoRequests

/-! ## Two people on duty -/

/-- Who is on duty by day may read every shell before noon, unless it is locked. -/
def dutyRule (declared : List Attribute) : Rule :=
  ⟨⟨.allow, Rights.ofList [.read], declared⟩, [.identifiable "(AAS)*"],
    .allOf
      [.comparison .eq [.attribute (.claim "work.duty"), .text "day"],
        .comparison .lt [.attribute (.global .utcNow), .time "12:00"],
        .negation (.comparison .eq [.field "$aas#category", .text "locked"])]⟩

/-- The claims of someone on duty, with a name and a site. -/
def dutyClaims (name site : String) : Claims :=
  [("name", .string name), ("work", .object [("site", .string site), ("duty", .string "day")])]

/-- A request to read one shell of which a name and a category are known. -/
def categoryRequest (idShort : String) : Request :=
  ⟨.read, .identifiable "(AAS)42",
    [("$aas#idShort", .text idShort), ("$aas#category", .text "open")]⟩

/-- Within the first minute of a day in June 2024. -/
def juneMidnight : Timestamp :=
  ⟨⟨2024, 6, 2, by decide⟩, ⟨0, 0, 59, by decide⟩, 500000000, Offset.utc, by decide⟩

/-- Two people who are both on duty, but not of one name or at one site, read a shell whatever
its name is: one at the beginning of 1970, the other within the first minute of a day in June
2024, under a rule that declares attributes and under one that declares none. -/
theorem duty_reads_shell :
    SameButDeclared [dutyRule []] [dutyRule [.claim "name", .global .localNow]] ∧
    (dutyRule []).formula.SeesAlike (dutyClaims "Ann" "north") (dutyClaims "Bob" "south")
      (categoryRequest "Motor").targetAttributes (categoryRequest "Pump").targetAttributes ∧
    Timestamp.epoch.SameMinuteOfDay juneMidnight ∧
    (categoryRequest "Motor").decideAt [dutyRule []] (some (dutyClaims "Ann" "north")) .epoch =
      .ok true ∧
    (categoryRequest "Pump").decideAt [dutyRule [.claim "name", .global .localNow]]
      (some (dutyClaims "Bob" "south")) juneMidnight = .ok true := by
  have hseen : (dutyRule []).formula.SeesAlike (dutyClaims "Ann" "north")
      (dutyClaims "Bob" "south") (categoryRequest "Motor").targetAttributes
      (categoryRequest "Pump").targetAttributes := by
    constructor
    · intro path hpath
      have hduty : path = "work.duty" := by
        simpa [dutyRule, Formula.attributes, Formula.attributesAll, Operand.attributes] using hpath
      rw [hduty]
      rfl
    · intro path hpath
      have hcategory : path = "$aas#category" := by
        simpa [dutyRule, Formula.fields, Formula.fieldsAll, Operand.fields] using hpath
      rw [hcategory]
      rfl
  have hminute : Timestamp.epoch.SameMinuteOfDay juneMidnight := ⟨rfl, rfl, rfl, rfl⟩
  have hann : (categoryRequest "Motor").decideAt [dutyRule []] (some (dutyClaims "Ann" "north"))
      .epoch = .ok true := rfl
  have hsame : ∃ granted,
      (categoryRequest "Motor").decideAt [dutyRule []] (some (dutyClaims "Ann" "north")) .epoch =
        .ok granted ∧
      (categoryRequest "Pump").decideAt [dutyRule [.claim "name", .global .localNow]]
        (some (dutyClaims "Bob" "south")) juneMidnight = .ok granted :=
    decision_noninterference rfl rfl rfl (List.forall_mem_singleton.mpr hseen) hminute rfl rfl
  obtain ⟨granted, hgranted, hbob⟩ := hsame
  rw [hann, Except.ok.injEq] at hgranted
  rw [← hgranted] at hbob
  exact ⟨rfl, hseen, hminute, hann, hbob⟩

end AssetAccess
