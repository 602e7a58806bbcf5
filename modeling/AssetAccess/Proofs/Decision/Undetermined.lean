import AssetAccess.Proofs.Decision.Resolution
set_option autoImplicit false

/-!
# Comparisons without an outcome

A comparison is undetermined where it has not two operands, where its left side stands for
nothing, or where its right side cannot be compared with what the left one stands for.
These are the comparisons that have no order (`undetermined_iff`).  The tests of order and
of equality fail on them.  `ne` does not: it is the negation of `eq`, so it holds of two
operands about which nothing is known (`Environment.Undetermined.testAll_iff`).

So a rule may be granted to a subject for want of the claim that it asks for.
-/

namespace AssetAccess

namespace Environment

/-! ## Which comparisons are undetermined -/

/-- What the left side of a comparison stands for.  Literals, casts and references stand for
nothing. -/
inductive Denotes (env : Environment) : Operand → Sample → Prop where
  /-- a field of the model that the target has -/
  | field {path : String} {value : Operand} :
      Field.isModelPath path = true → Table.last? path env.target = some value →
      Denotes env (.field path) (.field value)
  /-- a claim that is resolved -/
  | claim {path : String} {value : ClaimValue} :
      env.resolved.claim? path = some value → Denotes env (.attribute (.claim path)) (.claim value)
  /-- a global attribute that is resolved -/
  | time {g : Global} {now : TimeOfDay} :
      env.resolved.global? g = some now → Denotes env (.attribute (.global g)) (.time now)

/-- The right side of a comparison can be compared with what the left side stands for. -/
inductive Comparable (env : Environment) : Sample → Operand → Prop where
  | texts (a b : String) : Comparable env (.field (.text a)) (.text b)
  | times {a b : String} {t u : TimeOfDay} :
      TimeOfDay.read? a.toList = some t → TimeOfDay.read? b.toList = some u →
      Comparable env (.field (.time a)) (.time b)
  | claim (value : ClaimValue) (b : String) : Comparable env (.claim value) (.text b)
  | clockAndTime (now : TimeOfDay) {b : String} {t : TimeOfDay} :
      TimeOfDay.read? b.toList = some t → Comparable env (.time now) (.time b)
  | clocks (now : TimeOfDay) {g : Global} {t : TimeOfDay} :
      env.resolved.global? g = some t → Comparable env (.time now) (.attribute (.global g))

/-- A comparison of some operands has no outcome. -/
inductive Undetermined (env : Environment) : List Operand → Prop where
  | arity {operands : List Operand} : operands.length ≠ 2 → Undetermined env operands
  | unresolved {left right : Operand} :
      (∀ v, ¬ env.Denotes left v) → Undetermined env [left, right]
  | incomparable {left right : Operand} {v : Sample} :
      env.Denotes left v → ¬ env.Comparable v right → Undetermined env [left, right]

variable {env : Environment}

/-- The sample of a left side is what it stands for. -/
theorem sample?_eq_some_iff (o : Operand) (v : Sample) :
    env.sources.sample? o = some v ↔ env.Denotes o v := by
  constructor
  · intro h
    unfold Sources.sample? at h
    split at h
    · rename_i path
      split at h
      · rename_i hmodel
        obtain ⟨value, hvalue, rfl⟩ := Option.map_eq_some_iff.mp h
        exact .field hmodel hvalue
      · cases h
    · obtain ⟨value, hvalue, rfl⟩ := Option.map_eq_some_iff.mp h
      exact .claim hvalue
    · obtain ⟨now, hnow, rfl⟩ := Option.map_eq_some_iff.mp h
      exact .time hnow
    · cases h
  · intro h
    cases h with
    | field hmodel hvalue => simp [Sources.sample?, sources, hmodel, hvalue]
    | claim hvalue => simp [Sources.sample?, sources, hvalue]
    | time hnow => simp [Sources.sample?, sources, hnow]

/-- There is an order exactly where the right side can be compared. -/
theorem order?_isSome_iff (v : Sample) (right : Operand) :
    (env.sources.order? v right).isSome = true ↔ env.Comparable v right := by
  constructor
  · intro h
    unfold Sources.order? at h
    split at h
    · exact .texts _ _
    · split at h
      · rename_i ht hu
        exact .times ht hu
      · cases h
    · exact .claim _ _
    · exact .claim _ _
    · rw [Option.isSome_map, Option.isSome_iff_exists] at h
      obtain ⟨t, ht⟩ := h
      exact .clockAndTime _ ht
    · rw [Option.isSome_map, Option.isSome_iff_exists] at h
      obtain ⟨t, ht⟩ := h
      exact .clocks _ ht
    · cases h
  · intro h
    cases h with
    | texts a b => rfl
    | times ht hu => simp [Sources.order?, ht, hu]
    | claim value b => cases value <;> rfl
    | clockAndTime now ht => simp [Sources.order?, ht]
    | clocks now ht => simp [Sources.order?, sources, ht]

/-- Two operands are without an order exactly when their comparison is undetermined. -/
theorem undetermined_pair_iff (left right : Operand) :
    env.Undetermined [left, right] ↔ env.compare left right = none := by
  rw [compare_eq_order?, Option.bind_eq_none_iff]
  constructor
  · intro h v hv
    rw [sample?_eq_some_iff] at hv
    cases h with
    | arity hlength => exact absurd rfl hlength
    | unresolved hnothing => exact absurd hv (hnothing v)
    | incomparable hdenotes hnot =>
        rename_i w
        have hsame : v = w := by
          rw [← sample?_eq_some_iff] at hv hdenotes
          exact Option.some.inj (hv.symm.trans hdenotes)
        rw [hsame, ← Option.not_isSome_iff_eq_none, order?_isSome_iff]
        exact hnot
  · intro h
    cases hsample : env.sources.sample? left with
    | none =>
        refine .unresolved fun v hv => ?_
        rw [← sample?_eq_some_iff, hsample] at hv
        cases hv
    | some v =>
        refine .incomparable ((sample?_eq_some_iff left v).mp hsample) ?_
        rw [← order?_isSome_iff, h v hsample]
        simp

/-- A comparison is undetermined exactly when its operands, if they are two, are without an
order. -/
theorem undetermined_iff (operands : List Operand) :
    env.Undetermined operands ↔
      ∀ left right, operands = [left, right] → env.compare left right = none := by
  constructor
  · rintro h left right rfl
    exact (undetermined_pair_iff left right).mp h
  · intro h
    cases hpair : pair? operands with
    | none => exact .arity ((pair?_eq_none_iff operands).mp hpair)
    | some sides =>
        have hoperands := (pair?_eq_some_iff operands sides).mp hpair
        rw [hoperands, undetermined_pair_iff]
        exact h _ _ hoperands

/-! ## What they are evaluated to -/

/-- Of two operands without an order, only `ne` holds. -/
theorem test_of_compare_eq_none {left right : Operand} (h : env.compare left right = none)
    (op : Comparison) : env.test op left right = decide (op = .ne) := by
  rw [test_eq_test, Sources.test]
  rw [compare_eq_order?, Option.bind_eq_none_iff] at h
  have hverdict : (env.sources.sample? left).bind
      (fun v => env.sources.verdict? op v right) = none := by
    rw [Option.bind_eq_none_iff]
    intro v hv
    exact (env.sources.verdict?_eq_none_iff op v right).mpr (h v hv)
  rw [hverdict]
  rfl

/-- An undetermined comparison holds exactly when it is a `ne` of two operands. -/
theorem Undetermined.testAll_iff {operands : List Operand} (h : env.Undetermined operands)
    (op : Comparison) :
    env.testAll op operands = true ↔ op = .ne ∧ operands.length = 2 := by
  unfold testAll
  cases hpair : pair? operands with
  | none =>
      have hlength := (pair?_eq_none_iff operands).mp hpair
      simp [hlength]
  | some sides =>
      have hoperands := (pair?_eq_some_iff operands sides).mp hpair
      have horder := (undetermined_iff operands).mp h _ _ hoperands
      simp [test_of_compare_eq_none horder, hoperands]

end Environment

/-! ## Attributes that are never resolved -/

/-- No value of the attribute is known for a subject: it has no such claim, or the attribute
is of a kind that is not supported. -/
inductive Attribute.Unresolvable (claims : Claims) : Attribute → Prop where
  | claim {path : String} : claims.lookup? path = none → Unresolvable claims (.claim path)
  | clientNow : Unresolvable claims (.global .clientNow)
  | anonymous : Unresolvable claims (.global .anonymous)
  | reference (name : String) : Unresolvable claims (.reference name)

namespace Attribute.Unresolvable

variable {claims : Claims} {a : Attribute}

/-- Such an attribute stands for nothing, whatever is resolved beforehand. -/
theorem not_denotes (h : a.Unresolvable claims) (target : TargetAttributes) (clock : Clock)
    (attributes : List Attribute) (v : Sample) :
    ¬ (Environment.mk target (.ofAttributes claims clock attributes)).Denotes
      (.attribute a) v := by
  intro hdenotes
  cases hdenotes with
  | claim hvalue =>
      rw [Resolved.claim?_ofAttributes] at hvalue
      cases h with
      | claim hlookup => simp [hlookup] at hvalue
  | time hnow =>
      rw [Resolved.global?_ofAttributes] at hnow
      cases h with
      | clientNow | anonymous => simp [Clock.time?] at hnow

/-- Nothing can be compared with such an attribute. -/
theorem not_comparable (h : a.Unresolvable claims) (target : TargetAttributes) (clock : Clock)
    (attributes : List Attribute) (v : Sample) :
    ¬ (Environment.mk target (.ofAttributes claims clock attributes)).Comparable
      v (.attribute a) := by
  intro hcomparable
  cases hcomparable with
  | clocks now hother =>
      rw [Resolved.global?_ofAttributes] at hother
      cases h with
      | clientNow | anonymous => simp [Clock.time?] at hother

/-- A comparison with such an attribute among its operands is undetermined. -/
theorem undetermined (h : a.Unresolvable claims) {operands : List Operand}
    (hmem : .attribute a ∈ operands) (target : TargetAttributes) (clock : Clock)
    (attributes : List Attribute) :
    (Environment.mk target (.ofAttributes claims clock attributes)).Undetermined operands := by
  match operands with
  | [] | [_] => exact .arity (by simp)
  | _ :: _ :: _ :: _ => exact .arity (by simp)
  | [left, right] =>
      rw [List.mem_cons, List.mem_singleton] at hmem
      rcases hmem with hleft | hright
      · rw [← hleft]
        exact .unresolved (h.not_denotes target clock attributes)
      · rw [Environment.undetermined_pair_iff, Environment.compare_eq_order?,
          Option.bind_eq_none_iff]
        intro v _
        rw [← Option.not_isSome_iff_eq_none, Environment.order?_isSome_iff, ← hright]
        exact h.not_comparable target clock attributes v

end Attribute.Unresolvable

/-- A rule whose formula is one comparison with such an attribute grants what it applies to,
if the comparison is a `ne` of two operands, and nothing otherwise. -/
theorem Rule.grants_of_unresolvable_iff {r : Rule} {op : Comparison} {operands : List Operand}
    (hformula : r.formula = .comparison op operands) {claims : Claims} {a : Attribute}
    (hmem : .attribute a ∈ operands) (ha : a.Unresolvable claims) (q : Request) (clock : Clock) :
    r.Grants q claims clock ↔ op = .ne ∧ operands.length = 2 ∧ r ∈ q.candidates [r] := by
  have hholds : r.holds claims clock q.targetAttributes = true ↔
      op = .ne ∧ operands.length = 2 := by
    rw [Rule.holds, hformula]
    exact (ha.undetermined hmem q.targetAttributes clock r.attributes).testAll_iff op
  have hgrants := q.mem_candidates_and_holds_iff [r] claims clock r
  rw [hholds] at hgrants
  constructor
  · intro h
    obtain ⟨hcandidate, hne, hlength⟩ := hgrants.mpr ⟨List.mem_singleton_self r, h⟩
    exact ⟨hne, hlength, hcandidate⟩
  · rintro ⟨hne, hlength, hcandidate⟩
    exact (hgrants.mp ⟨hcandidate, hne, hlength⟩).2

/-- When an undetermined comparison fails: always, unless it is a `ne` of two operands, which
holds.  So a rule that is one comparison with an attribute that is never resolved does not
change what other rules decide, unless its comparison is such a `ne`: then it grants every
request that it applies to. -/
theorem undetermined_fails_iff (op : Comparison) (operands : List Operand) :
    (∀ env : Environment, env.Undetermined operands →
      ((Formula.comparison op operands).holds env = false ↔
        op ≠ .ne ∨ operands.length ≠ 2)) ∧
    (∀ (q : Request) (claims : Claims) (clock : Clock) (r : Rule) (a : Attribute),
      r.formula = .comparison op operands → .attribute a ∈ operands → a.Unresolvable claims →
      ∀ rules rules', q.decide (rules ++ r :: rules') (some claims) clock = .ok true ↔
        (op = .ne ∧ operands.length = 2 ∧ r ∈ q.candidates [r]) ∨
          q.decide (rules ++ rules') (some claims) clock = .ok true) := by
  constructor
  · intro env h
    rw [← Bool.not_eq_true, Formula.holds, h.testAll_iff op]
    exact Decidable.not_and_iff_or_not
  · intro q claims clock r a hformula hmem ha rules rules'
    rw [q.decide_eq_ok_true_iff, q.decide_eq_ok_true_iff,
      ← Rule.grants_of_unresolvable_iff hformula hmem ha q clock]
    simp only [List.mem_append, List.mem_cons]
    constructor
    · rintro ⟨r', hr' | rfl | hr', hgrants⟩
      · exact .inr ⟨r', .inl hr', hgrants⟩
      · exact .inl hgrants
      · exact .inr ⟨r', .inr hr', hgrants⟩
    · rintro (hgrants | ⟨r', hr' | hr', hgrants⟩)
      · exact ⟨r, .inr (.inl rfl), hgrants⟩
      · exact ⟨r', .inl hr', hgrants⟩
      · exact ⟨r', .inr (.inr hr'), hgrants⟩

/-! ## A rule for everyone but guests -/

/-- Everyone whose role compares like this with that of a guest may read every shell. -/
def guestRule (op : Comparison) : Rule :=
  ⟨⟨.allow, Rights.ofList [.read], []⟩, [.identifiable "(AAS)*"],
    .comparison op [.attribute (.claim "role"), .text "guest"]⟩

/-- An undetermined comparison may hold: without a role, one has not the role of a guest.
A subject without any claims is granted the request for that reason. -/
theorem undetermined_ne_holds :
    ¬ (∀ (env : Environment) (op : Comparison) (operands : List Operand),
        env.Undetermined operands → (Formula.comparison op operands).holds env = false) ∧
    (Attribute.claim "role").Unresolvable [] ∧
    readRequest.decide [guestRule .ne] (some []) (.ofTimestamp .epoch) = .ok true := by
  refine ⟨?_, .claim rfl, rfl⟩
  intro h
  have hnobody : (Environment.mk [] .empty).Undetermined
      [.attribute (.claim "role"), .text "guest"] :=
    (Environment.undetermined_pair_iff _ _).mpr rfl
  have hfails := h _ .ne _ hnobody
  cases hfails

/-- A subject without a role is granted nothing where its role has to be that of a guest, and
everything where it must not be. -/
theorem guest_rule_without_role :
    (Environment.mk [] .empty).Undetermined [.attribute (.claim "role"), .text "guest"] ∧
    (guestRule .eq).formula.holds ⟨[], .empty⟩ = false ∧
    readRequest.decide [guestRule .eq] (some []) (.ofTimestamp .epoch) ≠ .ok true ∧
    readRequest.decide [guestRule .ne] (some []) (.ofTimestamp .epoch) = .ok true := by
  have hnobody : (Environment.mk [] .empty).Undetermined
      [.attribute (.claim "role"), .text "guest"] :=
    (Environment.undetermined_pair_iff _ _).mpr rfl
  have hrole : (Attribute.claim "role").Unresolvable [] := .claim rfl
  obtain ⟨hfails, hother⟩ :=
    undetermined_fails_iff .eq [.attribute (.claim "role"), .text "guest"]
  obtain ⟨_, hgrants⟩ := undetermined_fails_iff .ne [.attribute (.claim "role"), .text "guest"]
  refine ⟨hnobody, (hfails _ hnobody).mpr (.inl (by simp)), ?_, ?_⟩
  · intro h
    have hgranted := (hother readRequest [] _ (guestRule .eq) _ rfl
      List.mem_cons_self hrole [] []).mp h
    rcases hgranted with hne | hnone
    · cases hne.1
    · cases hnone
  · have happlies : guestRule .ne ∈ readRequest.candidates [guestRule .ne] :=
      List.mem_cons_self
    exact (hgrants readRequest [] _ (guestRule .ne) _ rfl
      List.mem_cons_self hrole [] []).mpr (.inl ⟨rfl, rfl, happlies⟩)

end AssetAccess
