import AssetAccess.Proofs.Decision.Resolution
set_option autoImplicit false

/-!
# More information never takes access away

A formula without `negation` and without `ne` is positive.  Whatever makes it hold is found
somewhere, and it goes on holding when more is found beside it: further claims, times and
fields, and further texts in a claim that is a list.  What was found must stay as it was.

A list that grows keeps its members, and has the same order with a text as before, so no
comparison but `ne` can fail for it (`Sources.ExtendedBy.testAll`).  The connectives pass this
on (`Formula.Positive.truth_mono`).  With positive rules a subject therefore gains nothing by
keeping claims to itself.
-/

namespace AssetAccess

/-! ## Positive formulas -/

/-- There is no `negation` and no `ne` in the formula, at any depth. -/
inductive Formula.Positive : Formula → Prop where
  | allOf {parts : List Formula} : (∀ f ∈ parts, Positive f) → Positive (.allOf parts)
  | anyOf {parts : List Formula} : (∀ f ∈ parts, Positive f) → Positive (.anyOf parts)
  | matchOf {parts : List Formula} : (∀ f ∈ parts, Positive f) → Positive (.matchOf parts)
  | comparison {op : Comparison} (operands : List Operand) :
      op ≠ .ne → Positive (.comparison op operands)
  | textTest (op : TextTest) (operands : List TextOperand) : Positive (.textTest op operands)
  | constant (b : Bool) : Positive (.constant b)

section Readings

variable {leaf leaf' : Comparison → List Operand → Bool} {parts : List Formula}

theorem Formula.all_truths_mono
    (h : ∀ f ∈ parts, f.truth leaf = true → f.truth leaf' = true)
    (hall : (Formula.truths leaf parts).all id = true) :
    (Formula.truths leaf' parts).all id = true := by
  rw [Formula.truths_eq_map, List.all_map, List.all_eq_true] at hall ⊢
  intro f hf
  exact h f hf (hall f hf)

theorem Formula.any_truths_mono
    (h : ∀ f ∈ parts, f.truth leaf = true → f.truth leaf' = true)
    (hany : (Formula.truths leaf parts).any id = true) :
    (Formula.truths leaf' parts).any id = true := by
  rw [Formula.truths_eq_map, List.any_map, List.any_eq_true] at hany ⊢
  obtain ⟨f, hf, htrue⟩ := hany
  exact ⟨f, hf, h f hf htrue⟩

/-- A positive formula goes on being true when all comparisons do that it may be made of. -/
theorem Formula.Positive.truth_mono {f : Formula} (hf : f.Positive)
    (h : ∀ op operands, op ≠ .ne → leaf op operands = true → leaf' op operands = true)
    (htrue : f.truth leaf = true) : f.truth leaf' = true := by
  induction hf with
  | allOf _ ih | matchOf _ ih =>
      rw [Formula.truth, Bool.and_eq_true] at htrue ⊢
      exact ⟨htrue.1, Formula.all_truths_mono ih htrue.2⟩
  | anyOf _ ih => exact Formula.any_truths_mono ih htrue
  | comparison operands hop => exact h _ operands hop htrue
  | textTest op operands => cases htrue
  | constant b => exact htrue

end Readings

/-! ## Sources that know more -/

/-- Whatever is found in the one place is found again in the other, as something to which it is
related. -/
def FoundAgain {α β : Type} (r : β → β → Prop) (find? find?' : α → Option β) : Prop :=
  ∀ key value, find? key = some value → ∃ value', find?' key = some value' ∧ r value value'

/-- A claim is contained in another one: it is the same text, or a list whose texts are all in
the other list. -/
inductive ClaimValue.Within : ClaimValue → ClaimValue → Prop where
  | text (s : String) : Within (.text s) (.text s)
  | list {items items' : List String} :
      (∀ s ∈ items, s ∈ items') → Within (.list items) (.list items')

/-- A sample is contained in another one: only claims may differ. -/
inductive Sample.Within : Sample → Sample → Prop where
  | field (value : Operand) : Within (.field value) (.field value)
  | claim {value value' : ClaimValue} :
      value.Within value' → Within (.claim value) (.claim value')
  | time (now : TimeOfDay) : Within (.time now) (.time now)

namespace Sources

/-- Other sources know all that these know, and maybe more. -/
structure ExtendedBy (s s' : Sources) : Prop where
  field : FoundAgain Eq s.field? s'.field?
  claim : FoundAgain ClaimValue.Within s.claim? s'.claim?
  time : FoundAgain Eq s.time? s'.time?

variable {s s' : Sources}

/-- What is compared is found again. -/
theorem ExtendedBy.sample (h : s.ExtendedBy s') :
    FoundAgain Sample.Within s.sample? s'.sample? := by
  intro o v hv
  unfold sample? at hv ⊢
  split at hv
  · split at hv
    · rename_i hmodel
      obtain ⟨value, hvalue, rfl⟩ := Option.map_eq_some_iff.mp hv
      obtain ⟨_, hvalue', rfl⟩ := h.field _ _ hvalue
      refine ⟨.field value, ?_, .field value⟩
      rw [if_pos hmodel, hvalue', Option.map_some]
    · cases hv
  · obtain ⟨value, hvalue, rfl⟩ := Option.map_eq_some_iff.mp hv
    obtain ⟨value', hvalue', hwithin⟩ := h.claim _ _ hvalue
    refine ⟨.claim value', ?_, .claim hwithin⟩
    rw [hvalue', Option.map_some]
  · obtain ⟨now, hnow, rfl⟩ := Option.map_eq_some_iff.mp hv
    obtain ⟨_, hnow', rfl⟩ := h.time _ _ hnow
    refine ⟨.time now, ?_, .time now⟩
    rw [hnow', Option.map_some]
  · cases hv

/-- Of what is known already, the order stays. -/
theorem ExtendedBy.order (h : s.ExtendedBy s') {v : Sample} {right : Operand} {o : Ordering}
    (ho : s.order? v right = some o) : s'.order? v right = some o := by
  unfold order? at ho
  split at ho
  -- only a global attribute on the right is looked up
  case h_6 =>
    obtain ⟨t, ht, rfl⟩ := Option.map_eq_some_iff.mp ho
    obtain ⟨_, ht', rfl⟩ := h.time _ _ ht
    rw [order?, ht', Option.map_some]
  case h_7 => cases ho
  all_goals exact ho

/-- A positive verdict stays: where it is on a list, the text is among more of them. -/
theorem ExtendedBy.verdict (h : s.ExtendedBy s') {op : Comparison} (hop : op ≠ .ne)
    {v v' : Sample} (hv : v.Within v') {right : Operand}
    (hverdict : s.verdict? op v right = some true) : s'.verdict? op v' right = some true := by
  cases hv with
  | field value | time now =>
      obtain ⟨o, ho, haccepts⟩ := Option.map_eq_some_iff.mp hverdict
      exact Option.map_eq_some_iff.mpr ⟨o, h.order ho, haccepts⟩
  | claim hwithin =>
      cases hwithin with
      | text a =>
          obtain ⟨o, ho, haccepts⟩ := Option.map_eq_some_iff.mp hverdict
          exact Option.map_eq_some_iff.mpr ⟨o, h.order ho, haccepts⟩
      | list hsub =>
          cases right with
          | text b =>
              cases op with
              | eq =>
                  simp only [verdict?, Comparison.acceptsMember, Option.some.injEq,
                    decide_eq_true_eq] at hverdict ⊢
                  exact hsub b hverdict
              | ne => exact absurd rfl hop
              | le | lt | ge | gt => exact hverdict
          | _ => cases hverdict

/-- A comparison but `ne` holds where there is a verdict, and it is positive. -/
theorem test_iff (s : Sources) {op : Comparison} (hop : op ≠ .ne) (left right : Operand) :
    s.test op left right = true ↔
      ∃ v, s.sample? left = some v ∧ s.verdict? op v right = some true := by
  rw [test, decide_eq_false hop, ← Option.bind_eq_some_iff]
  cases (s.sample? left).bind fun v => s.verdict? op v right with
  | none => simp
  | some b => simp

/-- So a comparison that holds goes on holding, if it is not `ne`. -/
theorem ExtendedBy.testAll (h : s.ExtendedBy s') {op : Comparison} (hop : op ≠ .ne)
    {operands : List Operand} (htest : s.testAll op operands = true) :
    s'.testAll op operands = true := by
  unfold Sources.testAll at htest ⊢
  cases hpair : pair? operands with
  | none => rw [hpair] at htest; cases htest
  | some sides =>
      rw [hpair] at htest
      obtain ⟨v, hv, hverdict⟩ := (s.test_iff hop sides.1 sides.2).mp htest
      obtain ⟨v', hv', hwithin⟩ := h.sample _ _ hv
      exact (s'.test_iff hop sides.1 sides.2).mpr ⟨v', hv', h.verdict hop hwithin hverdict⟩

end Sources

/-- A positive formula goes on holding where more is known. -/
theorem Formula.Positive.holds_mono {f : Formula} (hf : f.Positive) {env env' : Environment}
    (h : env.sources.ExtendedBy env'.sources) (hholds : f.holds env = true) :
    f.holds env' = true := by
  rw [Formula.holds_eq_truth_sources] at hholds ⊢
  exact hf.truth_mono (fun _ _ hop => h.testAll hop) hholds

/-! ## Decisions -/

section Decisions

variable {claims claims' : Claims} {target target' : TargetAttributes}

theorem FoundAgain.refl {α β : Type} (find? : α → Option β) : FoundAgain Eq find? find? :=
  fun _ value hvalue => ⟨value, hvalue, rfl⟩

/-- Attributes that are put in front of others hide none of them. -/
theorem foundAgain_append (further : TargetAttributes) (target : TargetAttributes) :
    FoundAgain Eq (Table.last? · target) (Table.last? · (further ++ target)) := by
  intro path value (hvalue : Table.last? path target = some value)
  refine ⟨value, ?_, rfl⟩
  show Table.last? path (further ++ target) = some value
  rw [Table.last?_append, hvalue, Option.some_or]

/-- Looking up at once, more is found of a subject with more claims and of a target of which
more is known. -/
theorem Sources.direct_extendedBy
    (hclaims : FoundAgain ClaimValue.Within claims.lookup? claims'.lookup?)
    (htarget : FoundAgain Eq (Table.last? · target) (Table.last? · target'))
    (time? : Global → Option TimeOfDay) :
    (Sources.direct target claims time?).ExtendedBy (.direct target' claims' time?) where
  field := htarget
  claim := hclaims
  time := .refl time?

/-- A rule with a positive formula goes on holding for a subject with more claims. -/
theorem Rule.holds_mono {r : Rule} (hr : r.formula.Positive)
    (hclaims : FoundAgain ClaimValue.Within claims.lookup? claims'.lookup?)
    (htarget : FoundAgain Eq (Table.last? · target) (Table.last? · target')) (clock : Clock)
    (hholds : r.holds claims clock target = true) : r.holds claims' clock target' = true := by
  have hsub : ∀ a ∈ r.formula.attributes, a ∈ r.attributes :=
    fun a ha => List.mem_append_right _ ha
  rw [Rule.holds, r.formula.holds_ofAttributes _ _ _ hsub] at hholds ⊢
  have hmore := Sources.direct_extendedBy hclaims htarget clock.time?
  exact hr.truth_mono (fun _ _ hop => hmore.testAll hop) hholds

namespace Request

/-- The same request, where other attributes of the target are known. -/
def knowing (q : Request) (target : TargetAttributes) : Request :=
  { q with targetAttributes := target }

variable {q : Request} {clock : Clock}

theorem mem_of_mem_candidates {rules : List Rule} {r : Rule} (hr : r ∈ q.candidates rules) :
    r ∈ rules := by
  unfold candidates applicable at hr
  rw [List.mem_filter, List.mem_filter] at hr
  exact hr.1.1

/-- Of rules that go on holding, none has to be evaluated that was not evaluated before. -/
theorem evaluated_subset {rules : List Rule}
    (h : ∀ r ∈ rules, r.holds claims clock q.targetAttributes = true →
      r.holds claims' clock target = true) :
    ∀ r ∈ (q.knowing target).evaluated claims' clock rules,
      r ∈ q.evaluated claims clock rules := by
  induction rules with
  | nil => exact fun r hr => hr
  | cons first rules ih =>
      obtain ⟨hfirst, hrest⟩ := List.forall_mem_cons.mp h
      intro r hr
      unfold evaluated at hr ⊢
      split at hr
      · rw [List.mem_singleton] at hr
        split <;> simp [hr]
      · rename_i hnot
        rw [if_neg fun hholds => hnot (hfirst hholds)]
        rcases List.mem_cons.mp hr with heq | hmem
        · exact List.mem_cons.mpr (.inl heq)
        · exact List.mem_cons_of_mem _ (ih hrest r hmem)

theorem grantedTo_mono {rules : List Rule}
    (h : ∀ r ∈ q.candidates rules, r.holds claims clock q.targetAttributes = true →
      r.holds claims' clock target = true)
    (hgranted : q.grantedTo rules claims clock = true) :
    (q.knowing target).grantedTo rules claims' clock = true := by
  unfold grantedTo at hgranted ⊢
  rw [List.any_eq_true] at hgranted ⊢
  obtain ⟨r, hr, hholds⟩ := hgranted
  exact ⟨r, hr, h r hr hholds⟩

/-- At any instant: a request that is granted is granted still, and no rule has to be evaluated
for it that could not be. -/
theorem decideAt_mono {rules : List Rule} {now : Timestamp}
    (h : ∀ r ∈ q.candidates rules, r.holds claims (.ofTimestamp now) q.targetAttributes = true →
      r.holds claims' (.ofTimestamp now) target = true)
    (hgranted : q.decideAt rules (some claims) now = .ok true) :
    (q.knowing target).decideAt rules (some claims') now = .ok true := by
  simp only [decideAt] at hgranted ⊢
  split at hgranted
  · cases hgranted
  · rename_i hevaluated
    rw [decide_some, Except.ok.injEq] at hgranted
    rw [if_neg, decide_some, grantedTo_mono h hgranted]
    rw [Bool.and_eq_true, List.any_eq_true] at hevaluated ⊢
    rintro ⟨hnow, r, hr, hutc⟩
    exact hevaluated ⟨hnow, r, evaluated_subset h r hr, hutc⟩

end Request

end Decisions

/-- Positive formulas are monotone in what is known.  If such a formula holds, it holds where
every claim, time and field that was found is found again, lists of texts maybe with further
texts.  So if all rules have positive formulas, a request that is granted to a subject is
granted to it with further claims, and where further attributes of the target are known: on
any clock, and at any instant, also at one that has no date in UTC. -/
theorem positive_monotone :
    (∀ (f : Formula) (env env' : Environment), f.Positive →
      env.sources.ExtendedBy env'.sources → f.holds env = true → f.holds env' = true) ∧
    (∀ (q : Request) (rules : List Rule) (claims claims' : Claims) (target : TargetAttributes),
      (∀ r ∈ rules, r.formula.Positive) →
      FoundAgain ClaimValue.Within claims.lookup? claims'.lookup? →
      FoundAgain Eq (Table.last? · q.targetAttributes) (Table.last? · target) →
      (∀ clock, q.decide rules (some claims) clock = .ok true →
        (q.knowing target).decide rules (some claims') clock = .ok true) ∧
      (∀ now, q.decideAt rules (some claims) now = .ok true →
        (q.knowing target).decideAt rules (some claims') now = .ok true)) := by
  constructor
  · intro f env env' hf hextended hholds
    exact hf.holds_mono hextended hholds
  · intro q rules claims claims' target hpositive hclaims htarget
    have hholds : ∀ clock, ∀ r ∈ q.candidates rules,
        r.holds claims clock q.targetAttributes = true → r.holds claims' clock target = true := by
      intro clock r hr
      exact Rule.holds_mono (hpositive r (Request.mem_of_mem_candidates hr)) hclaims htarget clock
    constructor
    · intro clock hgranted
      rw [Request.decide_some, Except.ok.injEq] at hgranted ⊢
      exact Request.grantedTo_mono (hholds clock) hgranted
    · intro now hgranted
      exact Request.decideAt_mono (hholds _) hgranted

/-! ## A writer becomes a reader too -/

/-- Writers may read every shell, if its name is not too late in the alphabet. -/
def writerRule : Rule :=
  ⟨⟨.allow, Rights.ofList [.read], []⟩, [.identifiable "(AAS)*"],
    .anyOf
      [.allOf
        [.comparison .eq [.attribute (.claim "role"), .text "writer"],
          .comparison .lt [.field "$aas#idShort", .text "P"]],
        .comparison .ge [.attribute (.claim "clearance"), .text "secret"]]⟩

theorem writerRule_positive : writerRule.formula.Positive := by
  refine .anyOf (List.forall_mem_cons.mpr ⟨.allOf ?_, ?_⟩)
  · intro f hf
    simp only [List.mem_cons, List.not_mem_nil, or_false] at hf
    rcases hf with rfl | rfl
    · exact .comparison _ (by decide)
    · exact .comparison _ (by decide)
  · exact List.forall_mem_singleton.mpr (.comparison _ (by decide))

/-- The claims of someone who only writes. -/
def writerClaims : Claims := [("role", .array [.string "writer"])]

/-- The claims of someone who also reads. -/
def readerClaims : Claims := [("role", .array [.string "reader", .string "writer"])]

/-- Where there is one claim, which is a list, only its own name leads anywhere. -/
theorem lookup?_array (name path : String) (items : List Json) :
    Claims.lookup? [(name, .array items)] path =
      if Text.segments '.' path.toList = [name.toList] then ClaimValue.ofJson? (.array items)
      else none := by
  unfold Claims.lookup?
  generalize Text.segments '.' path.toList = segments
  match segments with
  | [] => simp
  | [leaf] =>
      have hleaf : name = String.ofList leaf ↔ leaf = name.toList := by
        rw [← String.toList_inj, String.toList_ofList, eq_comm]
      by_cases heq : leaf = name.toList
      · simp [Table.last?, heq]
      · simp [Table.last?, hleaf, heq]
  | first :: second :: rest =>
      have hdescend : Claims.descend? [(name, .array items)] first = none := by
        by_cases hfirst : name = String.ofList first
        · simp [Claims.descend?, Table.last?, hfirst, Json.members?]
        · simp [Claims.descend?, Table.last?, hfirst]
      simp only [List.dropLast_cons_cons, List.foldlM_cons, hdescend, Option.bind_eq_bind,
        Option.bind_none]
      split <;> simp

/-- A role that is added hides none of the others. -/
theorem writerClaims_foundAgain :
    FoundAgain ClaimValue.Within writerClaims.lookup? readerClaims.lookup? := by
  intro path value hvalue
  rw [writerClaims, lookup?_array] at hvalue
  rw [readerClaims, lookup?_array]
  split at hvalue
  · rename_i hrole
    cases hvalue
    exact ⟨.list ["reader", "writer"], if_pos hrole, .list (by simp)⟩
  · cases hvalue

/-- Who writes reads a shell of which the name is known, and reads it still when reading is
among the roles and the category is known as well. -/
theorem writer_reads_shell :
    (∀ r ∈ [writerRule], r.formula.Positive) ∧
    FoundAgain ClaimValue.Within writerClaims.lookup? readerClaims.lookup? ∧
    FoundAgain Eq (Table.last? · [("$aas#idShort", Operand.text "Motor")])
      (Table.last? · [("$aas#category", .text "open"), ("$aas#idShort", .text "Motor")]) ∧
    (readRequest.knowing [("$aas#idShort", .text "Motor")]).decideAt [writerRule]
      (some writerClaims) .epoch = .ok true ∧
    (readRequest.knowing [("$aas#category", .text "open"), ("$aas#idShort", .text "Motor")]).decideAt
      [writerRule] (some readerClaims) .epoch = .ok true := by
  have hpositive : ∀ r ∈ [writerRule], r.formula.Positive :=
    List.forall_mem_singleton.mpr writerRule_positive
  have htarget : FoundAgain Eq (Table.last? · [("$aas#idShort", Operand.text "Motor")])
      (Table.last? · [("$aas#category", .text "open"), ("$aas#idShort", .text "Motor")]) :=
    foundAgain_append [("$aas#category", .text "open")] _
  have hwriter : (readRequest.knowing [("$aas#idShort", .text "Motor")]).decideAt [writerRule]
      (some writerClaims) .epoch = .ok true := rfl
  obtain ⟨_, hdecision⟩ := positive_monotone
  obtain ⟨_, hinstant⟩ := hdecision (readRequest.knowing [("$aas#idShort", .text "Motor")])
    [writerRule] writerClaims readerClaims _ hpositive writerClaims_foundAgain htarget
  exact ⟨hpositive, writerClaims_foundAgain, htarget, hwriter, hinstant .epoch hwriter⟩

end AssetAccess
