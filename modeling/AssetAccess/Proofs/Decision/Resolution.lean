import AssetAccess.Proofs.Decision.Granting
import AssetAccess.Proofs.Decision.Meaning
set_option autoImplicit false

/-!
# Resolving attributes beforehand

Before a formula is evaluated its attributes are resolved, one after another, into what
is then known of claims and times.  One step makes its own attribute known and changes
what is known of no other; a claim that is known stays as it is (`claim?_add`,
`global?_add`).  So what is known after a whole list depends on its members only, not on
their order, their number or on what else is resolved: an attribute of the list has the
value that it has in the raw claims or on the clock, and every other attribute has none
(`claim?_ofAttributes`, `global?_ofAttributes`).

A formula asks for no attribute that is not written in it.  Its evaluation is therefore
what it would be if every claim and every time were looked up when they are needed, and
the attributes that a rule declares do not matter.
-/

namespace AssetAccess

/-- The time of a global attribute on a clock.  The subject's own time and its anonymity are
on no clock. -/
def Clock.time? (clock : Clock) : Global → Option TimeOfDay
  | .utcNow => some clock.utcTime
  | .localNow => some clock.localTime
  | .clientNow => none
  | .anonymous => none

namespace Resolved

variable (claims : Claims) (clock : Clock)

/-! ## One attribute -/

theorem claim?_withClaim (r : Resolved) (path path' : String) (v : ClaimValue) :
    (r.withClaim path v).claim? path' = if path = path' then some v else r.claim? path' := rfl

theorem global?_withGlobal (r : Resolved) (g g' : Global) (t : TimeOfDay) :
    (r.withGlobal g t).global? g' = if g = g' then some t else r.global? g' := by
  unfold withGlobal global?
  by_cases h : g = g'
  · simp [h]
  · simp [h]

/-- A step makes the claim that it is about known, unless it is known already. -/
theorem claim?_add (r : Resolved) (a : Attribute) (path : String) :
    (r.add claims clock a).claim? path =
      (r.claim? path).or (if a = .claim path then claims.lookup? path else none) := by
  match a with
  | .claim path' =>
      by_cases hpath : path' = path
      · rw [hpath, if_pos rfl, add]
        cases hknown : r.claim? path with
        | some v => simp [hknown]
        | none =>
            cases hlookup : claims.lookup? path with
            | some v => simp [claim?_withClaim]
            | none => simp [hknown]
      · have hother : ¬ Attribute.claim path' = .claim path := by simpa using hpath
        rw [if_neg hother, Option.or_none, add]
        split
        · rfl
        · split
          · rw [claim?_withClaim, if_neg hpath]
          · rfl
  | .global g => cases g <;> simp [add, withGlobal, claim?]
  | .reference name => simp [add]

/-- A step makes the global attribute that it is about known, if a clock shows it. -/
theorem global?_add (r : Resolved) (a : Attribute) (g : Global) :
    (r.add claims clock a).global? g =
      (if a = .global g then clock.time? g else none).or (r.global? g) := by
  match a with
  | .claim path =>
      have hother : ¬ Attribute.claim path = .global g := by simp
      rw [if_neg hother, Option.none_or, add]
      split
      · rfl
      · split
        · rfl
        · rfl
  | .global .utcNow | .global .localNow =>
      rw [add, global?_withGlobal]
      cases g <;> rfl
  | .global .clientNow | .global .anonymous => cases g <;> rfl
  | .reference name => simp [add]

/-! ## A list of attributes -/

/-- What a run makes known of a claim, whatever was known before. -/
theorem claim?_foldl_add (attributes : List Attribute) (r : Resolved) (path : String) :
    (attributes.foldl (add claims clock) r).claim? path =
      (r.claim? path).or (if .claim path ∈ attributes then claims.lookup? path else none) := by
  induction attributes generalizing r with
  | nil => simp
  | cons a attributes ih =>
      rw [List.foldl_cons, ih, claim?_add]
      by_cases ha : a = .claim path
      · cases r.claim? path <;> cases claims.lookup? path <;> simp [ha]
      · have ha' : ¬ Attribute.claim path = a := fun h => ha h.symm
        simp [ha, ha']

/-- What a run makes known of a global attribute, whatever was known before. -/
theorem global?_foldl_add (attributes : List Attribute) (r : Resolved) (g : Global) :
    (attributes.foldl (add claims clock) r).global? g =
      (if .global g ∈ attributes then clock.time? g else none).or (r.global? g) := by
  induction attributes generalizing r with
  | nil => simp
  | cons a attributes ih =>
      rw [List.foldl_cons, ih, global?_add]
      by_cases ha : a = .global g
      · by_cases hmem : .global g ∈ attributes
        · cases r.global? g <;> cases clock.time? g <;> simp [ha, hmem]
        · simp [ha, hmem]
      · have ha' : ¬ Attribute.global g = a := fun h => ha h.symm
        simp [ha, ha']

/-- A claim is known exactly when it is among the attributes and can be looked up. -/
theorem claim?_ofAttributes (attributes : List Attribute) (path : String) :
    (ofAttributes claims clock attributes).claim? path =
      if .claim path ∈ attributes then claims.lookup? path else none := by
  rw [ofAttributes, claim?_foldl_add]
  rfl

/-- A time is known exactly when it is among the attributes and on the clock. -/
theorem global?_ofAttributes (attributes : List Attribute) (g : Global) :
    (ofAttributes claims clock attributes).global? g =
      if .global g ∈ attributes then clock.time? g else none := by
  rw [ofAttributes, global?_foldl_add]
  exact Option.or_none

end Resolved

/-! ## Looking up at once -/

/-- The sources of a formula that looks up what it asks for: the attributes of the target,
the raw claims of the subject, and a clock. -/
def Sources.direct (target : TargetAttributes) (claims : Claims)
    (time? : Global → Option TimeOfDay) : Sources where
  field? path := Table.last? path target
  claim? := claims.lookup?
  time? := time?

/-- Resolving attributes beforehand and looking them up at once agree on those attributes. -/
theorem agreeOn_direct (target : TargetAttributes) (claims : Claims) (clock : Clock)
    {attributes : List Attribute} {a : Attribute} (ha : a ∈ attributes) :
    (Environment.mk target (Resolved.ofAttributes claims clock attributes)).sources.AgreeOn
      (.direct target claims clock.time?) a := by
  match a with
  | .claim path =>
      show (Resolved.ofAttributes claims clock attributes).claim? path = claims.lookup? path
      rw [Resolved.claim?_ofAttributes, if_pos ha]
  | .global g =>
      show (Resolved.ofAttributes claims clock attributes).global? g = clock.time? g
      rw [Resolved.global?_ofAttributes, if_pos ha]
  | .reference name => exact trivial

/-- Where all attributes of a formula are resolved, and perhaps others, its evaluation is
what it would be if they were looked up at once. -/
theorem Formula.holds_ofAttributes (f : Formula) (target : TargetAttributes) (claims : Claims)
    (clock : Clock) {attributes : List Attribute} (hsub : ∀ a ∈ f.attributes, a ∈ attributes) :
    f.holds ⟨target, Resolved.ofAttributes claims clock attributes⟩ =
      f.truth (Sources.direct target claims clock.time?).testAll := by
  rw [Formula.holds_eq_truth_sources]
  apply Formula.truth_congr
  intro op operands hleaf
  apply Sources.testAll_congr op
  · intro o _ path _
    rfl
  · intro o ho a ha
    exact agreeOn_direct target claims clock (hsub a (hleaf.attribute_mem ho ha))

/-! ## Declared attributes -/

/-- The rule with other declared attributes. -/
def Rule.declaring (attributes : List Attribute) (r : Rule) : Rule :=
  { r with acl := { r.acl with attributes := attributes } }

/-- What a rule grants, told without what is resolved for it: its formula holds when everything
that it asks for is looked up at once. -/
theorem Rule.grants_iff_direct (r : Rule) (q : Request) (claims : Claims) (clock : Clock) :
    r.Grants q claims clock ↔
      (r.acl.access = .allow ∧ q.right ∈ r.acl.rights.members ∧
        ∃ t, r.targets = [t] ∧ t.Covers q.target) ∧
      r.formula.truth (Sources.direct q.targetAttributes claims clock.time?).testAll = true := by
  have hformula : r.formula.holds ⟨q.targetAttributes,
        Resolved.ofAttributes claims clock (r.acl.attributes ++ r.formula.attributes)⟩ =
      r.formula.truth (Sources.direct q.targetAttributes claims clock.time?).testAll :=
    r.formula.holds_ofAttributes q.targetAttributes claims clock
      fun a ha => List.mem_append_right r.acl.attributes ha
  constructor
  · rintro ⟨hallow, hright, hcovers, hholds⟩
    exact ⟨⟨hallow, hright, hcovers⟩, hformula.symm.trans hholds⟩
  · rintro ⟨⟨hallow, hright, hcovers⟩, htruth⟩
    exact ⟨hallow, hright, hcovers, hformula.trans htruth⟩

/-- Declared attributes do not matter for what a rule grants. -/
theorem Rule.grants_declaring_iff (r : Rule) (attributes : List Attribute) (q : Request)
    (claims : Claims) (clock : Clock) :
    (r.declaring attributes).Grants q claims clock ↔ r.Grants q claims clock := by
  rw [Rule.grants_iff_direct, Rule.grants_iff_direct]
  exact Iff.rfl

/-- Two lists of rules are the same but for declared attributes. -/
def SameButDeclared (rules rules' : List Rule) : Prop :=
  rules.map (Rule.declaring []) = rules'.map (Rule.declaring [])

theorem SameButDeclared.exists_grants_iff {rules rules' : List Rule}
    (h : SameButDeclared rules rules') (q : Request) (claims : Claims) (clock : Clock) :
    (∃ r ∈ rules, r.Grants q claims clock) ↔ ∃ r ∈ rules', r.Grants q claims clock := by
  have hmap : ∀ rs : List Rule, (∃ r ∈ rs, r.Grants q claims clock) ↔
      ∃ r ∈ rs.map (Rule.declaring []), r.Grants q claims clock := by
    intro rs
    constructor
    · rintro ⟨r, hr, hgrants⟩
      exact ⟨r.declaring [], List.mem_map_of_mem hr, (r.grants_declaring_iff ..).mpr hgrants⟩
    · rintro ⟨r', hr', hgrants⟩
      obtain ⟨r, hr, rfl⟩ := List.mem_map.mp hr'
      exact ⟨r, hr, (r.grants_declaring_iff ..).mp hgrants⟩
  rw [hmap rules, hmap rules', h]

/-- Declared attributes do not change a decision. -/
theorem SameButDeclared.decide_eq {rules rules' : List Rule} (h : SameButDeclared rules rules')
    (q : Request) (subject : Option Claims) (clock : Clock) :
    q.decide rules subject clock = q.decide rules' subject clock := by
  cases subject with
  | none => rfl
  | some claims =>
      rw [Request.decide_some, Request.decide_some,
        q.grantedTo_congr claims clock (h.exists_grants_iff q claims clock)]

/-! ## Standing at an instant -/

/-- The time of a global attribute at an instant, to the minute: in UTC and where the instant
is written. -/
def Timestamp.globalTime? (now : Timestamp) : Global → Option TimeOfDay
  | .utcNow => some now.utcMinuteOfDay
  | .localNow => some now.time.toMinute
  | .clientNow => none
  | .anonymous => none

theorem time?_ofTimestamp (now : Timestamp) :
    (Clock.ofTimestamp now).time? = now.globalTime? := by
  funext g
  cases g <;> rfl

/-- The meaning of a formula for a subject at an instant, every attribute looked up when it is
needed: claims in the raw claims, times at the instant. -/
def Formula.holdsDirectly (target : TargetAttributes) (claims : Claims) (now : Timestamp)
    (f : Formula) : Bool :=
  f.truth (Sources.direct target claims now.globalTime?).testAll

/-- Resolving attributes beforehand changes nothing.  What is resolved for a formula, of any
declared attributes and of its own, gives it the value that it has when everything is
looked up when it is needed; and so the attributes that rules declare never change a
decision, whatever others are declared in their place. -/
theorem resolution_transparent {now : Timestamp} (hnow : now.utcDateSupported = true) :
    (∀ (f : Formula) (target : TargetAttributes) (claims : Claims) (declared : List Attribute),
      f.holds ⟨target, Resolved.ofAttributes claims (Clock.ofTimestamp now)
        (declared ++ f.attributes)⟩ = f.holdsDirectly target claims now) ∧
    (∀ (q : Request) (rules rules' : List Rule) (subject : Option Claims),
      SameButDeclared rules rules' →
      q.decideAt rules subject now = q.decideAt rules' subject now) := by
  constructor
  · intro f target claims declared
    rw [Formula.holdsDirectly, ← time?_ofTimestamp]
    exact f.holds_ofAttributes target claims _ fun a ha => List.mem_append_right declared ha
  · intro q rules rules' subject hsame
    rw [q.decideAt_of_utcDateSupported hnow, q.decideAt_of_utcDateSupported hnow]
    exact hsame.decide_eq q subject _

/-! ## A rule for the day shift -/

/-- Who works the day shift may read every shell before noon. -/
def dayShiftRule (declared : List Attribute) : Rule :=
  ⟨⟨.allow, Rights.ofList [.read], declared⟩, [.identifiable "(AAS)*"],
    .allOf
      [.comparison .eq [.attribute (.claim "work.shifts"), .text "day"],
        .comparison .lt [.attribute (.global .utcNow), .time "12:00"]]⟩

/-- The claims of someone who works two shifts. -/
def shiftClaims : Claims :=
  [("work", .object [("shifts", .array [.string "night", .string "day"])])]

/-- At the beginning of 1970 the rule grants the request, whether it declares nothing or
attributes that are of no use, one of them twice. -/
theorem day_shift_reads_shell :
    Timestamp.epoch.utcDateSupported = true ∧
    SameButDeclared [dayShiftRule []]
      [dayShiftRule [.claim "name", .global .clientNow, .claim "name", .global .utcNow]] ∧
    (dayShiftRule []).formula.holdsDirectly [] shiftClaims .epoch = true ∧
    readRequest.decideAt
      [dayShiftRule [.claim "name", .global .clientNow, .claim "name", .global .utcNow]]
      (some shiftClaims) .epoch = .ok true := by
  have hgranted : readRequest.decideAt [dayShiftRule []] (some shiftClaims) .epoch = .ok true :=
    rfl
  have hholds : (dayShiftRule []).formula.holds
      ⟨[], Resolved.ofAttributes shiftClaims (Clock.ofTimestamp .epoch)
        ([] ++ (dayShiftRule []).formula.attributes)⟩ = true := rfl
  obtain ⟨hdirect, hdeclared⟩ := @resolution_transparent .epoch rfl
  refine ⟨rfl, rfl, ?_, ?_⟩
  · rw [← hdirect _ [] shiftClaims []]
    exact hholds
  · exact (hdeclared readRequest [dayShiftRule []] _ _ rfl).symm.trans hgranted

end AssetAccess
