import AssetAccess.Proofs.Formula.Leaves
set_option autoImplicit false

/-!
# The meaning of a comparison

A comparison says something about its two sides, which are looked up at the moment it is
evaluated (`Sources`).  The left side stands for a sample: the value of a field, the value
of a claim, or a time.  A sample and a right side may or may not be comparable, so the
verdict on them is `none`, or a truth value.  Where there is no verdict, only `ne` holds.

The evaluation of a rule computes just this, from the attributes of the target and from
what was resolved for the rule (`test_eq_test`).
-/

namespace AssetAccess

/-! ## Samples and verdicts -/

/-- Where a formula finds what it asks for, at the moment it asks. -/
structure Sources where
  field? : String → Option Operand
  claim? : String → Option ClaimValue
  time? : Global → Option TimeOfDay

/-- What the left side of a comparison stands for. -/
inductive Sample where
  | field (value : Operand)
  | claim (value : ClaimValue)
  | time (now : TimeOfDay)

/-- The two operands of a binary operation are its operands. -/
theorem mem_of_pair? {α : Type} {xs : List α} {p : α × α} (h : pair? xs = some p) :
    p.1 ∈ xs ∧ p.2 ∈ xs := by
  rw [(pair?_eq_some_iff xs p).mp h]
  simp

/-- The comparison holds of things in a given order. -/
def Comparison.accepts : Comparison → Ordering → Bool
  | .eq, o => o.isEq
  | .ne, o => o.isNe
  | .le, o => o.isLE
  | .lt, o => o.isLT
  | .ge, o => o.isGE
  | .gt, o => o.isGT

/-- The comparison holds of a list of texts and a text, which is or is not a member.  A list
is equal to each of its members, and neither before nor after any text. -/
def Comparison.acceptsMember : Comparison → Bool → Bool
  | .eq, isMember => isMember
  | .ne, isMember => !isMember
  | .le, _ => true
  | .lt, _ => false
  | .ge, _ => true
  | .gt, _ => false

theorem decide_eq_isEq (o : Ordering) : decide (o = .eq) = o.isEq := by cases o <;> rfl

namespace Sources

/-- The sample of a left side.  Literals and casts have none, and neither have references. -/
def sample? (s : Sources) : Operand → Option Sample
  | .field path => if Field.isModelPath path then (s.field? path).map .field else none
  | .attribute (.claim path) => (s.claim? path).map .claim
  | .attribute (.global g) => (s.time? g).map .time
  | _ => none

/-- The order of a sample and a right side, if they are comparable. -/
def order? (s : Sources) : Sample → Operand → Option Ordering
  | .field (.text a), .text b => some (Text.order a b)
  | .field (.time a), .time b =>
    match TimeOfDay.read? a.toList, TimeOfDay.read? b.toList with
    | some t, some u => some (t.order u)
    | _, _ => none
  | .claim (.text a), .text b => some (Text.order a b)
  | .claim (.list _), .text _ => some .eq
  | .time now, .time b => (TimeOfDay.read? b.toList).map now.order
  | .time now, .attribute (.global g) => (s.time? g).map now.order
  | _, _ => none

/-- The verdict on a sample and a right side, if they are comparable. -/
def verdict? (s : Sources) (op : Comparison) (v : Sample) (right : Operand) : Option Bool :=
  match v, right with
  | .claim (.list items), .text b => some (op.acceptsMember (decide (b ∈ items)))
  | v, right => (s.order? v right).map op.accepts

/-- A comparison of two operands; without a verdict, only `ne` holds. -/
def test (s : Sources) (op : Comparison) (left right : Operand) : Bool :=
  ((s.sample? left).bind fun v => s.verdict? op v right).getD (decide (op = .ne))

/-- A comparison of a list of operands: false for any number of them but two. -/
def testAll (s : Sources) (op : Comparison) (operands : List Operand) : Bool :=
  match pair? operands with
  | some (left, right) => s.test op left right
  | none => false

/-- The value of a claim is the sample of that claim. -/
theorem eq_claim_of_sample? {s : Sources} {o : Operand} {value : ClaimValue}
    (h : s.sample? o = some (.claim value)) : ∃ path, o = .attribute (.claim path) := by
  unfold sample? at h
  split at h
  · split at h
    · simp at h
    · cases h
  · exact ⟨_, rfl⟩
  · simp at h
  · cases h

/-- There is a verdict exactly where there is an order. -/
theorem verdict?_eq_none_iff (s : Sources) (op : Comparison) (v : Sample) (right : Operand) :
    s.verdict? op v right = none ↔ s.order? v right = none := by
  unfold verdict?
  split
  · simp [order?]
  · exact Option.map_eq_none_iff

/-- The verdicts on `eq` and `ne` are opposite. -/
theorem verdict?_ne (s : Sources) (v : Sample) (right : Operand) :
    s.verdict? .ne v right = (s.verdict? .eq v right).map (!·) := by
  unfold verdict?
  split
  · rfl
  · rw [Option.map_map]
    congr 1
    funext o
    cases o <;> rfl

/-- `ne` holds exactly where `eq` does not, also without a verdict. -/
theorem test_ne (s : Sources) (left right : Operand) :
    s.test .ne left right = !s.test .eq left right := by
  unfold test
  cases s.sample? left with
  | none => rfl
  | some v =>
      rw [Option.bind_some, Option.bind_some, verdict?_ne]
      cases s.verdict? .eq v right <;> rfl

/-! ## Sources that agree -/

/-- Two sources have the same answer to an attribute. -/
def AgreeOn (s s' : Sources) : Attribute → Prop
  | .claim path => s.claim? path = s'.claim? path
  | .global g => s.time? g = s'.time? g
  | .reference _ => True

variable {s s' : Sources}

theorem sample?_congr (o : Operand) (hfields : ∀ path ∈ o.fields, s.field? path = s'.field? path)
    (hattributes : ∀ a ∈ o.attributes, s.AgreeOn s' a) : s.sample? o = s'.sample? o := by
  match o with
  | .field path =>
      have h : s.field? path = s'.field? path := hfields path List.mem_cons_self
      rw [sample?, sample?, h]
  | .attribute (.claim path) =>
      have h : s.claim? path = s'.claim? path := hattributes (.claim path) List.mem_cons_self
      rw [sample?, sample?, h]
  | .attribute (.global g) =>
      have h : s.time? g = s'.time? g := hattributes (.global g) List.mem_cons_self
      rw [sample?, sample?, h]
  | .attribute (.reference _) | .text _ | .number _ | .boolean _ | .hex _ | .dateTime _
  | .time _ | .datePart _ _ | .cast _ _ => rfl

theorem order?_congr (v : Sample) (o : Operand)
    (hattributes : ∀ a ∈ o.attributes, s.AgreeOn s' a) : s.order? v o = s'.order? v o := by
  match v, o with
  | .time now, .attribute (.global g) =>
      have h : s.time? g = s'.time? g := hattributes (.global g) List.mem_cons_self
      rw [order?, order?, h]
  | .time _, .attribute (.claim _) | .time _, .attribute (.reference _) => rfl
  | .field value, o => cases value <;> cases o <;> rfl
  | .claim value, o => cases value <;> cases o <;> rfl
  | .time _, .field _ | .time _, .text _ | .time _, .number _ | .time _, .boolean _
  | .time _, .hex _ | .time _, .dateTime _ | .time _, .time _ | .time _, .datePart _ _
  | .time _, .cast _ _ => rfl

theorem verdict?_congr (op : Comparison) (v : Sample) (o : Operand)
    (hattributes : ∀ a ∈ o.attributes, s.AgreeOn s' a) :
    s.verdict? op v o = s'.verdict? op v o := by
  unfold verdict?
  split
  · rfl
  · rw [order?_congr _ _ hattributes]

/-- Sources that agree on what two operands ask for give the same verdicts on them. -/
theorem testAll_congr (op : Comparison) {operands : List Operand}
    (hfields : ∀ o ∈ operands, ∀ path ∈ o.fields, s.field? path = s'.field? path)
    (hattributes : ∀ o ∈ operands, ∀ a ∈ o.attributes, s.AgreeOn s' a) :
    s.testAll op operands = s'.testAll op operands := by
  unfold testAll
  cases hpair : pair? operands with
  | none => rfl
  | some sides =>
      obtain ⟨hleft, hright⟩ := mem_of_pair? hpair
      have hsample : s.sample? sides.1 = s'.sample? sides.1 :=
        sample?_congr _ (hfields _ hleft) (hattributes _ hleft)
      have hverdict : ∀ v, s.verdict? op v sides.2 = s'.verdict? op v sides.2 :=
        fun v => verdict?_congr op v _ (hattributes _ hright)
      simp only [test, hsample, hverdict]

end Sources

/-! ## Evaluation computes the meaning -/

namespace Environment

/-- What an environment holds, as sources. -/
def sources (env : Environment) : Sources where
  field? path := Table.last? path env.target
  claim? := env.resolved.claim?
  time? := env.resolved.global?

theorem compareField_eq_order? (env : Environment) (path : String) (right : Operand) :
    env.compareField path right =
      (Table.last? path env.target).bind fun value => env.sources.order? (.field value) right := by
  unfold compareField
  cases Table.last? path env.target with
  | none => rfl
  | some value => cases value <;> cases right <;> rfl

theorem compareGlobal_eq_order? (env : Environment) (g : Global) (right : Operand) :
    env.compareGlobal g right =
      (env.resolved.global? g).bind fun now => env.sources.order? (.time now) right := by
  unfold compareGlobal
  cases env.resolved.global? g with
  | none => rfl
  | some now =>
      simp only [Option.bind_some]
      split
      · rfl
      · rfl
      · rename_i htime hglobal
        unfold Sources.order?
        split <;> simp_all

/-- The order of two operands is that of the sample of the left one and the right one. -/
theorem compare_eq_order? (env : Environment) (left right : Operand) :
    env.compare left right =
      (env.sources.sample? left).bind fun v => env.sources.order? v right := by
  match left with
  | .field path =>
      simp only [compare, Sources.sample?, compareField_eq_order?]
      split
      · rw [Option.bind_map]
        rfl
      · rfl
  | .attribute (.claim path) =>
      simp only [compare, Sources.sample?, sources]
      cases env.resolved.claim? path with
      | none => cases right <;> rfl
      | some value => cases value <;> cases right <;> rfl
  | .attribute (.global g) =>
      simp only [compare, Sources.sample?, compareGlobal_eq_order?]
      rw [Option.bind_map]
      rfl
  | .attribute (.reference _) | .text _ | .number _ | .boolean _ | .hex _ | .dateTime _
  | .time _ | .datePart _ _ | .cast _ _ => rfl

/-- For the tests of order, the verdict is read off the order. -/
theorem verdict?_of_order (s : Sources) {op : Comparison} (heq : op ≠ .eq) (hne : op ≠ .ne)
    (v : Sample) (right : Operand) :
    s.verdict? op v right = (s.order? v right).map op.accepts := by
  unfold Sources.verdict?
  split
  · cases op with
    | eq => exact absurd rfl heq
    | ne => exact absurd rfl hne
    | le | lt | ge | gt => rfl
  · rfl

/-- A test of order holds where the order is one that it accepts. -/
theorem test_of_order (env : Environment) {op : Comparison} (heq : op ≠ .eq) (hne : op ≠ .ne)
    (left right : Operand) :
    env.sources.test op left right = (env.compare left right).any op.accepts := by
  rw [compare_eq_order?, Sources.test]
  cases env.sources.sample? left with
  | none => simp [hne]
  | some v =>
      rw [Option.bind_some, Option.bind_some, verdict?_of_order _ heq hne]
      cases env.sources.order? v right <;> simp [hne]

/-- Equality holds where the verdict on it is positive. -/
theorem equal_eq_test (env : Environment) (left right : Operand) :
    env.equal left right = env.sources.test .eq left right := by
  unfold equal
  split
  · rename_i path expected
    simp only [Sources.test, Sources.sample?, sources]
    cases env.resolved.claim? path with
    | none => rfl
    | some value =>
        cases value with
        | list items => rfl
        | text actual =>
            simp only [Option.map_some, Option.bind_some, Sources.verdict?, Sources.order?,
              Option.getD_some, Comparison.accepts]
            rw [← decide_eq_isEq, decide_eq_decide]
            exact (Text.order_eq_iff actual expected).symm
  · rename_i hother
    rw [compare_eq_order?, Sources.test]
    cases hsample : env.sources.sample? left with
    | none => rfl
    | some v =>
        rw [Option.bind_some, Option.bind_some]
        unfold Sources.verdict?
        split
        · rename_i items b
          obtain ⟨path, rfl⟩ := Sources.eq_claim_of_sample? hsample
          exact absurd rfl (hother path b rfl)
        · cases env.sources.order? v right with
          | none => rfl
          | some o => cases o <;> rfl

/-- The evaluation of a comparison gives what the comparison means. -/
theorem test_eq_test (env : Environment) (op : Comparison) (left right : Operand) :
    env.test op left right = env.sources.test op left right := by
  cases op with
  | eq => exact env.equal_eq_test left right
  | ne => rw [Sources.test_ne, ← equal_eq_test, test]
  | le | lt | ge | gt =>
      rw [env.test_of_order (by simp) (by simp), test]
      rfl

theorem testAll_eq_testAll (env : Environment) (op : Comparison) (operands : List Operand) :
    env.testAll op operands = env.sources.testAll op operands := by
  unfold testAll Sources.testAll
  cases pair? operands with
  | none => rfl
  | some sides => exact env.test_eq_test op sides.1 sides.2

end Environment

/-- The evaluation of a formula gives what the formula means. -/
theorem Formula.holds_eq_truth_sources (env : Environment) (f : Formula) :
    f.holds env = f.truth env.sources.testAll := by
  rw [Formula.holds_eq_truth]
  exact Formula.truth_congr fun op operands _ => env.testAll_eq_testAll op operands

end AssetAccess
