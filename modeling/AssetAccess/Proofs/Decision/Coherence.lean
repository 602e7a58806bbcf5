import AssetAccess.Proofs.Decision.Meaning
set_option autoImplicit false

/-!
# How the six comparisons fit together

Four of the comparisons read one and the same order of two operands, if there is one
(`holds_order_iff`), and `ne` is the negation of `eq`.  Where the left
operand is not a list of texts, `eq` reads that order too, so that the six fit together as on
a linear order, except that nothing but `ne` holds where there is no order.

A list of texts has no place among texts.  It has the order `eq` with every one of them,
whereas `eq` asks whether the text is in the list, and so there the two do not meet
(`compare_eq_some_iff_of_lists`, `holds_eq_iff_of_lists`).
-/

namespace AssetAccess

/-! ## Orders read backwards -/

/-- Exchanging two times turns their order round. -/
theorem TimeOfDay.order_swap (s t : TimeOfDay) : (s.order t).swap = t.order s :=
  Text.orderNat_swap s.seconds t.seconds

/-- The mirrored comparison accepts an order that is turned round. -/
theorem Comparison.accepts_mirrored (op : Comparison) (o : Ordering) :
    op.mirrored.accepts o.swap = op.accepts o := by
  cases op <;> cases o <;> rfl

/-- The comparison asks for an order, and for nothing else. -/
inductive Comparison.AsksOrder : Comparison → Prop where
  | le : AsksOrder .le
  | lt : AsksOrder .lt
  | ge : AsksOrder .ge
  | gt : AsksOrder .gt

namespace Environment

variable (env : Environment)

/-- A comparison of two operands holds. -/
def Holds (op : Comparison) (left right : Operand) : Prop :=
  (Formula.comparison op [left, right]).holds env = true

/-- An operand is a claim that is resolved to a list of texts. -/
inductive Lists : Operand → List String → Prop where
  | claim {path : String} {items : List String} :
      env.resolved.claim? path = some (.list items) → Lists (.attribute (.claim path)) items

variable {env} {left right : Operand}

/-! ## What each comparison reads -/

theorem holds_iff_test {op : Comparison} :
    env.Holds op left right ↔ env.test op left right = true := Iff.rfl

/-- Without an order, or with one, `ne` holds where `eq` does not. -/
theorem holds_ne_iff : env.Holds .ne left right ↔ ¬ env.Holds .eq left right := by
  rw [holds_iff_test, holds_iff_test, test, test, Bool.not_eq_true', Bool.not_eq_true]

/-- A comparison that asks for an order holds where there is one that it accepts. -/
theorem holds_order_iff {op : Comparison} (hop : op.AsksOrder) :
    env.Holds op left right ↔ ∃ o, env.compare left right = some o ∧ op.accepts o = true := by
  have hother : op ≠ .eq ∧ op ≠ .ne := by cases hop <;> simp
  rw [holds_iff_test, test_eq_test, test_of_order env hother.1 hother.2, Option.any_eq_true]

/-- Where the left operand is not a list, a comparison accepts the order of the two, and without
an order only `ne` holds. -/
theorem test_of_not_lists (hleft : ∀ items, ¬ env.Lists left items) (op : Comparison) :
    env.test op left right =
      ((env.compare left right).map op.accepts).getD (decide (op = .ne)) := by
  rw [test_eq_test, Sources.test, compare_eq_order?]
  cases hsample : env.sources.sample? left with
  | none => rfl
  | some v =>
      rw [Option.bind_some, Option.bind_some]
      unfold Sources.verdict?
      split
      · rename_i items b
        obtain ⟨path, rfl⟩ := Sources.eq_claim_of_sample? hsample
        obtain ⟨value, hclaim, hvalue⟩ := Option.map_eq_some_iff.mp hsample
        cases hvalue
        exact absurd (.claim hclaim) (hleft items)
      · rfl

/-- So equality reads the order as well. -/
theorem holds_eq_iff (hleft : ∀ items, ¬ env.Lists left items) :
    env.Holds .eq left right ↔ env.compare left right = some .eq := by
  rw [holds_iff_test, test_of_not_lists hleft]
  cases env.compare left right with
  | none => simp
  | some o => cases o <;> simp [Comparison.accepts]

/-! ## Lists -/

section Lists

variable {items : List String}

/-- A list has the order `eq` with every text, and no order with anything else. -/
theorem compare_eq_some_iff_of_lists (h : env.Lists left items) (o : Ordering) :
    env.compare left right = some o ↔ o = .eq ∧ ∃ b, right = .text b := by
  obtain ⟨hclaim⟩ := h
  cases right <;> simp [compare, hclaim, eq_comm]

/-- So of the comparisons that read the order, a list passes those that accept equals. -/
theorem holds_order_iff_of_lists (h : env.Lists left items) {op : Comparison}
    (hop : op.AsksOrder) :
    env.Holds op left right ↔ (∃ b, right = .text b) ∧ op.accepts .eq = true := by
  rw [holds_order_iff hop]
  constructor
  · rintro ⟨o, ho, haccepts⟩
    rw [compare_eq_some_iff_of_lists h] at ho
    obtain ⟨rfl, htext⟩ := ho
    exact ⟨htext, haccepts⟩
  · rintro ⟨htext, haccepts⟩
    exact ⟨.eq, (compare_eq_some_iff_of_lists h .eq).mpr ⟨rfl, htext⟩, haccepts⟩

/-- A list is equal to the texts in it, and to nothing else. -/
theorem holds_eq_iff_of_lists (h : env.Lists left items) :
    env.Holds .eq left right ↔ ∃ b, right = .text b ∧ b ∈ items := by
  obtain ⟨hclaim⟩ := h
  rw [holds_iff_test, test]
  cases right <;> simp [equal, compare, hclaim]

end Lists

/-! ## Global attributes -/

theorem not_lists_global (g : Global) (items : List String) :
    ¬ env.Lists (.attribute (.global g)) items := nofun

/-- Two global attributes in the other order have the order turned round, if they have one. -/
theorem compare_globals_swap (g h : Global) :
    env.compare (.attribute (.global h)) (.attribute (.global g)) =
      (env.compare (.attribute (.global g)) (.attribute (.global h))).map Ordering.swap := by
  simp only [compare, compareGlobal]
  cases env.resolved.global? g with
  | none => cases env.resolved.global? h <;> rfl
  | some s =>
      cases env.resolved.global? h with
      | none => rfl
      | some t => simp [TimeOfDay.order_swap]

/-- A comparison of two global attributes is the mirrored one of the two in the other order. -/
theorem holds_mirrored_globals (op : Comparison) (g h : Global) :
    env.Holds op.mirrored (.attribute (.global h)) (.attribute (.global g)) ↔
      env.Holds op (.attribute (.global g)) (.attribute (.global h)) := by
  rw [holds_iff_test, holds_iff_test, test_of_not_lists (not_lists_global h),
    test_of_not_lists (not_lists_global g), compare_globals_swap]
  cases env.compare (.attribute (.global g)) (.attribute (.global h)) with
  | none => cases op <;> simp [Comparison.mirrored]
  | some o => simp [Comparison.accepts_mirrored]

/-! ## Coherence -/

/-- Strict and weak comparisons fit together on all operands. -/
theorem holds_orders_coherent :
    ¬ (env.Holds .lt left right ∧ env.Holds .gt left right) ∧
    (env.Holds .le left right ↔
      env.Holds .lt left right ∨ (env.Holds .le left right ∧ env.Holds .ge left right)) ∧
    (env.Holds .ge left right ↔
      env.Holds .gt left right ∨ (env.Holds .le left right ∧ env.Holds .ge left right)) := by
  rw [holds_order_iff .lt, holds_order_iff .gt, holds_order_iff .le, holds_order_iff .ge]
  cases env.compare left right with
  | none => simp
  | some o => cases o <;> simp [Comparison.accepts]

/-- Where the left operand is not a list, equality fits in with them: of `lt`, `eq` and `gt`
exactly one holds, or none of the comparisons but `ne`. -/
theorem holds_eq_coherent (hleft : ∀ items, ¬ env.Lists left items) :
    (env.Holds .eq left right ↔ env.Holds .le left right ∧ env.Holds .ge left right) ∧
    (env.Holds .lt left right ↔ env.Holds .le left right ∧ ¬ env.Holds .eq left right) ∧
    (env.Holds .gt left right ↔ env.Holds .ge left right ∧ ¬ env.Holds .eq left right) ∧
    (env.Holds .le left right ∨ env.Holds .ge left right →
      (env.Holds .lt left right ∨ env.Holds .eq left right ∨ env.Holds .gt left right) ∧
      ¬ (env.Holds .lt left right ∧ env.Holds .eq left right) ∧
      ¬ (env.Holds .lt left right ∧ env.Holds .gt left right) ∧
      ¬ (env.Holds .eq left right ∧ env.Holds .gt left right)) := by
  rw [holds_order_iff .lt, holds_order_iff .gt, holds_order_iff .le, holds_order_iff .ge,
    holds_eq_iff hleft]
  cases env.compare left right with
  | none => simp
  | some o => cases o <;> simp [Comparison.accepts]

/-- A list compares with texts only, as neither before nor after any of them. -/
theorem holds_orders_of_lists {items : List String} (h : env.Lists left items) :
    ((env.Holds .le left right ∧ env.Holds .ge left right) ↔ ∃ b, right = .text b) ∧
    ¬ env.Holds .lt left right ∧ ¬ env.Holds .gt left right := by
  rw [holds_order_iff_of_lists h .lt, holds_order_iff_of_lists h .gt,
    holds_order_iff_of_lists h .le, holds_order_iff_of_lists h .ge]
  simp [Comparison.accepts]

end Environment

/-- The six comparisons are coherent.  Of any two operands, `ne` holds exactly where `eq` does
not, `lt` and `gt` exclude each other, and `le` and `ge` are `lt` and `gt` but for the operands
of which they both hold.  Unless the left operand is a list of texts, these operands are the
equal ones, so that of operands that compare at all exactly one of `lt`, `eq` and `gt` holds.
A list of texts compares with texts only; it is before none of them and after none, and equal
to those that are in it.  Comparisons of two global attributes can be read from either side. -/
theorem comparisons_coherent (env : Environment) :
    (∀ left right,
      (env.Holds .ne left right ↔ ¬ env.Holds .eq left right) ∧
      ¬ (env.Holds .lt left right ∧ env.Holds .gt left right) ∧
      (env.Holds .le left right ↔
        env.Holds .lt left right ∨ (env.Holds .le left right ∧ env.Holds .ge left right)) ∧
      (env.Holds .ge left right ↔
        env.Holds .gt left right ∨ (env.Holds .le left right ∧ env.Holds .ge left right))) ∧
    (∀ left right, (∀ items, ¬ env.Lists left items) →
      (env.Holds .eq left right ↔ env.Holds .le left right ∧ env.Holds .ge left right) ∧
      (env.Holds .lt left right ↔ env.Holds .le left right ∧ ¬ env.Holds .eq left right) ∧
      (env.Holds .gt left right ↔ env.Holds .ge left right ∧ ¬ env.Holds .eq left right) ∧
      (env.Holds .le left right ∨ env.Holds .ge left right →
        (env.Holds .lt left right ∨ env.Holds .eq left right ∨ env.Holds .gt left right) ∧
        ¬ (env.Holds .lt left right ∧ env.Holds .eq left right) ∧
        ¬ (env.Holds .lt left right ∧ env.Holds .gt left right) ∧
        ¬ (env.Holds .eq left right ∧ env.Holds .gt left right))) ∧
    (∀ left right items, env.Lists left items →
      (((env.Holds .le left right ∧ env.Holds .ge left right) ↔ ∃ b, right = .text b) ∧
        ¬ env.Holds .lt left right ∧ ¬ env.Holds .gt left right) ∧
      (env.Holds .eq left right ↔ ∃ b, right = .text b ∧ b ∈ items)) ∧
    (∀ op g h, env.Holds op (.attribute (.global g)) (.attribute (.global h)) ↔
      env.Holds op.mirrored (.attribute (.global h)) (.attribute (.global g))) := by
  refine ⟨?_, ?_, ?_, ?_⟩
  · intro left right
    exact ⟨Environment.holds_ne_iff, Environment.holds_orders_coherent⟩
  · intro left right hleft
    exact Environment.holds_eq_coherent hleft
  · intro left right items hlists
    exact ⟨Environment.holds_orders_of_lists hlists, Environment.holds_eq_iff_of_lists hlists⟩
  · intro op g h
    exact (Environment.holds_mirrored_globals op g h).symm

/-! ## A reader and writer in engineering -/

/-- What is known of someone with two roles and a department, at a quarter past nine in UTC,
which is two hours later where the service runs. -/
def staffEnvironment : Environment :=
  ⟨[], ⟨[("role", .list ["reader", "writer"]), ("department", .text "engineering")],
    [(.utcNow, ⟨9, 15, 0, by decide⟩), (.localNow, ⟨11, 15, 0, by decide⟩)]⟩⟩

/-- The department comes before that of the guests, so it is not the same.  The roles are equal
to one of them and to no other text, and come before none.  The time in UTC is before the
local one, and so this is after that. -/
theorem staff_compares :
    (∀ items, ¬ staffEnvironment.Lists (.attribute (.claim "department")) items) ∧
    staffEnvironment.Lists (.attribute (.claim "role")) ["reader", "writer"] ∧
    (staffEnvironment.Holds .lt (.attribute (.claim "department")) (.text "guests") ∧
      ¬ staffEnvironment.Holds .eq (.attribute (.claim "department")) (.text "guests")) ∧
    (staffEnvironment.Holds .eq (.attribute (.claim "role")) (.text "writer") ∧
      ¬ staffEnvironment.Holds .eq (.attribute (.claim "role")) (.text "visitor") ∧
      ¬ staffEnvironment.Holds .lt (.attribute (.claim "role")) (.text "visitor")) ∧
    staffEnvironment.Holds .gt (.attribute (.global .localNow)) (.attribute (.global .utcNow)) := by
  have hdepartment : ∀ items,
      ¬ staffEnvironment.Lists (.attribute (.claim "department")) items := by
    rintro items ⟨hclaim⟩
    cases hclaim
  have hrole : staffEnvironment.Lists (.attribute (.claim "role")) ["reader", "writer"] :=
    .claim rfl
  have hbefore :
      staffEnvironment.Holds .lt (.attribute (.claim "department")) (.text "guests") := rfl
  have hearlier : staffEnvironment.Holds .lt (.attribute (.global .utcNow))
      (.attribute (.global .localNow)) := rfl
  obtain ⟨_, hlinear, hlists, hglobals⟩ := comparisons_coherent staffEnvironment
  obtain ⟨_, hlt, _, _⟩ := hlinear _ (.text "guests") hdepartment
  obtain ⟨_, hwriter⟩ := hlists _ (.text "writer") _ hrole
  obtain ⟨⟨_, hnotBefore, _⟩, hvisitor⟩ := hlists _ (.text "visitor") _ hrole
  refine ⟨hdepartment, hrole, ⟨hbefore, (hlt.mp hbefore).2⟩, ⟨?_, ?_, hnotBefore⟩, ?_⟩
  · exact hwriter.mpr ⟨"writer", rfl, by decide⟩
  · rw [hvisitor]
    simp
  · exact (hglobals .lt .utcNow .localNow).mp hearlier

end AssetAccess
