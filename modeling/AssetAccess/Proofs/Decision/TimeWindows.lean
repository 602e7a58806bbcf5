import AssetAccess.Proofs.Decision.Coherence
import AssetAccess.Proofs.Decision.Resolution
import AssetAccess.Proofs.Text.ByteOrder
import Mathlib.Data.List.Forall2
import Mathlib.Data.Option.Basic
set_option autoImplicit false

/-!
# Time windows

A rule opens a window by comparing the time of day, where the service runs or in UTC, with a time
that is written in it.  The clock is read to the minute and the written time to the second, and
both are compared in seconds since midnight (`holdsAt_window_iff`).  The time in UTC is the local
one less the offset, around midnight in either direction.

A written time is a text, and only the time that is read from it matters.  Formulas in which
times are spelled in other ways (`Formula.SameButTimes`) have the same value, also of targets
whose attributes are such times, and so decisions over them are the same.
-/

namespace AssetAccess

/-! ## The clock in minutes -/

/-- The minute of the day that a global attribute stands for at an instant: that of the time as
it is written, or the one in UTC, which is that many minutes before it as the offset says.  The
subject's own time and its anonymity stand for none. -/
def Timestamp.minute? (now : Timestamp) : Global → Option Int
  | .localNow => some (now.time.hour * 60 + now.time.minute)
  | .utcNow => some ((now.time.hour * 60 + now.time.minute - now.offset.minutes) % 1440)
  | .clientNow => none
  | .anonymous => none

/-- The global attribute has a time then, at the full minute. -/
theorem Timestamp.globalTime?_of_minute? {now : Timestamp} {g : Global} {m : Int}
    (h : now.minute? g = some m) :
    ∃ t, now.globalTime? g = some t ∧ (t.seconds : Int) = 60 * m := by
  cases g with
  | localNow =>
      cases h
      refine ⟨now.time.toMinute, rfl, ?_⟩
      simp only [TimeOfDay.seconds, TimeOfDay.toMinute]
      omega
  | utcNow =>
      cases h
      refine ⟨now.utcMinuteOfDay, rfl, ?_⟩
      simp only [TimeOfDay.seconds, utcMinuteOfDay, utcMinutes]
      omega
  | clientNow => cases h
  | anonymous => cases h

namespace Comparison

/-- The comparison as a relation of numbers. -/
def Relates : Comparison → Int → Int → Prop
  | .eq, a, b => a = b
  | .ne, a, b => a ≠ b
  | .le, a, b => a ≤ b
  | .lt, a, b => a < b
  | .ge, a, b => a ≥ b
  | .gt, a, b => a > b

instance : (op : Comparison) → (a b : Int) → Decidable (op.Relates a b)
  | .eq, a, b => inferInstanceAs (Decidable (a = b))
  | .ne, a, b => inferInstanceAs (Decidable (a ≠ b))
  | .le, a, b => inferInstanceAs (Decidable (a ≤ b))
  | .lt, a, b => inferInstanceAs (Decidable (a < b))
  | .ge, a, b => inferInstanceAs (Decidable (b ≤ a))
  | .gt, a, b => inferInstanceAs (Decidable (b < a))

/-- A comparison accepts the order of two numbers that it relates. -/
theorem accepts_orderNat_iff (op : Comparison) (a b : Nat) :
    op.accepts (Text.orderNat a b) = true ↔ op.Relates a b := by
  rcases Nat.lt_trichotomy a b with hlt | heq | hgt
  · rw [(Text.orderNat_lt_iff a b).mpr hlt]
    cases op <;> simp [accepts, Relates] <;> omega
  · rw [(Text.orderNat_eq_iff a b).mpr heq]
    cases op <;> simp [accepts, Relates] <;> omega
  · rw [(Text.orderNat_gt_iff a b).mpr hgt]
    cases op <;> simp [accepts, Relates] <;> omega

end Comparison

/-! ## Windows -/

namespace Formula

/-- A global attribute is compared with a written time. -/
def window (op : Comparison) (g : Global) (text : String) : Formula :=
  .comparison op [.attribute (.global g), .time text]

/-- The value of a formula for a subject at an instant, in what is resolved for it: some declared
attributes and its own. -/
def holdsAt (f : Formula) (target : TargetAttributes) (claims : Claims) (now : Timestamp)
    (declared : List Attribute) : Bool :=
  f.holds ⟨target, Resolved.ofAttributes claims (.ofTimestamp now) (declared ++ f.attributes)⟩

variable {now : Timestamp} {g : Global} {m : Int}

/-- Where a global attribute is known, a window accepts the order of its time and the written
one; if none is written, only `ne` holds. -/
theorem holds_window {env : Environment} {t : TimeOfDay}
    (hknown : env.resolved.global? g = some t) (op : Comparison) (text : String) :
    (window op g text).holds env =
      ((TimeOfDay.read? text.toList).map fun u => op.accepts (t.order u)).getD
        (decide (op = .ne)) := by
  have hcompare : env.compare (.attribute (.global g)) (.time text) =
      (TimeOfDay.read? text.toList).map t.order := by
    simp only [Environment.compare, Environment.compareGlobal, hknown]
  change env.test op (.attribute (.global g)) (.time text) = _
  rw [Environment.test_of_not_lists (Environment.not_lists_global g), hcompare, Option.map_map]
  rfl

/-- A window is open when the minute of the day, in seconds, is related to the written time. -/
theorem holdsAt_window_iff (hminute : now.minute? g = some m) {op : Comparison} (hop : op ≠ .ne)
    (text : String) (target : TargetAttributes) (claims : Claims) (declared : List Attribute) :
    (window op g text).holdsAt target claims now declared = true ↔
      ∃ t, TimeOfDay.read? text.toList = some t ∧ op.Relates (60 * m) t.seconds := by
  obtain ⟨u, hclock, hseconds⟩ := Timestamp.globalTime?_of_minute? hminute
  have hmem : Attribute.global g ∈ declared ++ (window op g text).attributes :=
    List.mem_append_right declared List.mem_cons_self
  rw [holdsAt, holds_window (t := u)]
  · cases TimeOfDay.read? text.toList with
    | none => simp [hop]
    | some t => simp [TimeOfDay.order, Comparison.accepts_orderNat_iff, hseconds]
  · rw [Resolved.global?_ofAttributes, if_pos hmem, time?_ofTimestamp, hclock]

/-- `ne` is the negation of `eq`. -/
theorem holdsAt_window_ne (text : String) (target : TargetAttributes) (claims : Claims)
    (declared : List Attribute) :
    (window .ne g text).holdsAt target claims now declared =
      !(window .eq g text).holdsAt target claims now declared := rfl

end Formula

/-! ## Other spellings of times -/

/-- Two operands are the same, but for the spelling of times: where the one has a text for a time,
the other one has a text for that time, or both texts are of no time. -/
inductive Operand.SameButTimes : Operand → Operand → Prop where
  | refl (o : Operand) : SameButTimes o o
  | time {a b : String} :
      TimeOfDay.read? a.toList = TimeOfDay.read? b.toList → SameButTimes (.time a) (.time b)
  | datePart (part : DatePart) {o o' : Operand} :
      SameButTimes o o' → SameButTimes (.datePart part o) (.datePart part o')
  | cast (type : CastType) {o o' : Operand} :
      SameButTimes o o' → SameButTimes (.cast type o) (.cast type o')

/-- Two operands of a text test are the same, but for the spelling of times. -/
inductive TextOperand.SameButTimes : TextOperand → TextOperand → Prop where
  | refl (o : TextOperand) : SameButTimes o o
  | cast {o o' : Operand} : o.SameButTimes o' → SameButTimes (.cast o) (.cast o')

/-- Two formulas are the same, but for the spelling of times, wherever these are written. -/
inductive Formula.SameButTimes : Formula → Formula → Prop where
  | allOf {parts parts' : List Formula} :
      List.Forall₂ SameButTimes parts parts' → SameButTimes (.allOf parts) (.allOf parts')
  | anyOf {parts parts' : List Formula} :
      List.Forall₂ SameButTimes parts parts' → SameButTimes (.anyOf parts) (.anyOf parts')
  | negation {part part' : Formula} :
      SameButTimes part part' → SameButTimes (.negation part) (.negation part')
  | comparison (op : Comparison) {operands operands' : List Operand} :
      List.Forall₂ Operand.SameButTimes operands operands' →
      SameButTimes (.comparison op operands) (.comparison op operands')
  | textTest (op : TextTest) {operands operands' : List TextOperand} :
      List.Forall₂ TextOperand.SameButTimes operands operands' →
      SameButTimes (.textTest op operands) (.textTest op operands')
  | constant (b : Bool) : SameButTimes (.constant b) (.constant b)
  | matchOf {parts parts' : List Formula} :
      List.Forall₂ SameButTimes parts parts' → SameButTimes (.matchOf parts) (.matchOf parts')

/-- What is known of a target is the same, but for the spelling of times. -/
def TargetAttributes.SameButTimes : TargetAttributes → TargetAttributes → Prop :=
  List.Forall₂ fun e e' => e.1 = e'.1 ∧ e.2.SameButTimes e'.2

/-- Two rules are the same, but for the spelling of times in their formulas. -/
structure Rule.SameButTimes (r r' : Rule) : Prop where
  acl : r.acl = r'.acl
  targets : r.targets = r'.targets
  formula : r.formula.SameButTimes r'.formula

/-! ## Lists and options of them -/

section Related

variable {α β γ δ : Type} {R : α → β → Prop}

theorem rel_map {S : γ → δ → Prop} {f : α → γ} {f' : β → δ} {a : Option α} {b : Option β}
    (h : Option.Rel R a b) (hf : ∀ x y, R x y → S (f x) (f' y)) :
    Option.Rel S (a.map f) (b.map f') := by
  cases h with
  | none => exact .none
  | some hxy => exact .some (hf _ _ hxy)

/-- A function that does not tell related members apart maps related lists to one list. -/
theorem map_eq_map_of_forall₂ {f : α → γ} {f' : β → γ} {xs : List α} {ys : List β}
    (h : List.Forall₂ R xs ys) (hf : ∀ x ∈ xs, ∀ y, R x y → f x = f' y) :
    xs.map f = ys.map f' := by
  induction h with
  | nil => rfl
  | cons hxy _ ih =>
      rw [List.forall_mem_cons] at hf
      rw [List.map_cons, List.map_cons, hf.1 _ hxy, ih hf.2]

theorem isEmpty_eq_of_forall₂ {xs : List α} {ys : List β} (h : List.Forall₂ R xs ys) :
    xs.isEmpty = ys.isEmpty := by
  cases h with
  | nil => rfl
  | cons _ _ => rfl

end Related

/-! ## What a comparison sees of them -/

/-- Two samples are the same, but for the spelling of times. -/
inductive Sample.SameButTimes : Sample → Sample → Prop where
  | field {value value' : Operand} :
      value.SameButTimes value' → SameButTimes (.field value) (.field value')
  | claim (value : ClaimValue) : SameButTimes (.claim value) (.claim value)
  | time (now : TimeOfDay) : SameButTimes (.time now) (.time now)

namespace Sources

/-- Two sources have the same answers, but for the spelling of times in those about fields. -/
structure SameButTimes (s s' : Sources) : Prop where
  field : ∀ path, Option.Rel Operand.SameButTimes (s.field? path) (s'.field? path)
  claim : s.claim? = s'.claim?
  time : s.time? = s'.time?

variable {s s' : Sources} {v v' : Sample} {o o' : Operand}

/-- The left sides stand for the same, but for the spelling of times. -/
theorem SameButTimes.sample? (h : s.SameButTimes s') (ho : o.SameButTimes o') :
    Option.Rel Sample.SameButTimes (s.sample? o) (s'.sample? o') := by
  cases ho with
  | refl o =>
      match o with
      | .field path =>
          rw [Sources.sample?, Sources.sample?]
          split
          · exact rel_map (h.field path) fun _ _ => .field
          · exact .none
      | .attribute (.claim path) =>
          rw [Sources.sample?, Sources.sample?, h.claim]
          cases s'.claim? path with
          | none => exact .none
          | some value => exact .some (.claim value)
      | .attribute (.global g) =>
          rw [Sources.sample?, Sources.sample?, h.time]
          cases s'.time? g with
          | none => exact .none
          | some now => exact .some (.time now)
      | .attribute (.reference _) | .text _ | .number _ | .boolean _ | .hex _ | .dateTime _
      | .time _ | .datePart _ _ | .cast _ _ => exact .none
  | time _ | datePart _ _ | cast _ _ => exact .none

/-- The order of a sample and a right side is that of the times, however these are spelled. -/
theorem order?_sameButTimes (s : Sources) (hv : v.SameButTimes v') (ho : o.SameButTimes o') :
    s.order? v o = s.order? v' o' := by
  -- A written time is read in front of another one only, or behind a clock.  Parts of dates and
  -- casts have no order with anything, so what stands in them does not matter.
  cases ho with
  | refl o =>
      cases hv with
      | field hvalue =>
          cases hvalue with
          | refl _ => rfl
          | time h => cases o <;> simp [order?, h]
          | datePart _ _ | cast _ _ => cases o <;> rfl
      | claim value | time now => rfl
  | time hright =>
      cases hv with
      | @field value _ hvalue =>
          cases hvalue with
          | refl _ => cases value <;> simp [order?, hright]
          | time h => simp [order?, h, hright]
          | datePart _ _ | cast _ _ => rfl
      | claim value => cases value <;> rfl
      | time now => rw [order?, order?, hright]
  | datePart _ _ | cast _ _ =>
      cases hv with
      | @field value _ hvalue =>
          cases hvalue with
          | refl _ => cases value <;> rfl
          | time _ | datePart _ _ | cast _ _ => rfl
      | claim value => cases value <;> rfl
      | time now => rfl

/-- And so is the verdict on them. -/
theorem verdict?_sameButTimes (s : Sources) (op : Comparison) (hv : v.SameButTimes v')
    (ho : o.SameButTimes o') : s.verdict? op v o = s.verdict? op v' o' := by
  have horder := s.order?_sameButTimes hv ho
  cases hv with
  | field hvalue => exact congrArg (Option.map op.accepts) horder
  | time now => exact congrArg (Option.map op.accepts) horder
  | claim value =>
      cases ho with
      | refl o => rfl
      | time _ | datePart _ _ | cast _ _ => cases value <;> rfl

/-- Sources with the same answers about claims and times give the same verdicts. -/
theorem SameButTimes.verdict? (h : s.SameButTimes s') (op : Comparison) (v : Sample)
    (o : Operand) : s.verdict? op v o = s'.verdict? op v o := by
  apply verdict?_congr
  intro a _
  cases a with
  | claim path => exact congrFun h.claim path
  | global g => exact congrFun h.time g
  | reference name => trivial

/-- So a comparison has one value, however the times in its operands and in the fields that it
asks for are spelled. -/
theorem SameButTimes.test (h : s.SameButTimes s') (op : Comparison) {left left' : Operand}
    (hleft : left.SameButTimes left') (hright : o.SameButTimes o') :
    s.test op left o = s'.test op left' o' := by
  have hsample := h.sample? hleft
  rw [Sources.test, Sources.test]
  generalize s.sample? left = v, s'.sample? left' = v' at hsample ⊢
  cases hsample with
  | none => rfl
  | some hv =>
      rw [Option.bind_some, Option.bind_some, h.verdict? op, s'.verdict?_sameButTimes op hv hright]

theorem SameButTimes.testAll (h : s.SameButTimes s') (op : Comparison)
    {operands operands' : List Operand}
    (hoperands : List.Forall₂ Operand.SameButTimes operands operands') :
    s.testAll op operands = s'.testAll op operands' := by
  match hoperands with
  | .nil | .cons _ .nil => rfl
  | .cons hleft (.cons hright .nil) => exact h.test op hleft hright
  | .cons _ (.cons _ (.cons _ _)) => rfl

end Sources

/-! ## What a formula sees of them -/

theorem Operand.SameButTimes.attributes_eq {o o' : Operand} (h : o.SameButTimes o') :
    o.attributes = o'.attributes := by
  induction h with
  | refl o => rfl
  | time _ => rfl
  | datePart _ _ ih => exact ih
  | cast _ _ ih => exact ih

theorem TextOperand.SameButTimes.attributes_eq {o o' : TextOperand} (h : o.SameButTimes o') :
    o.attributes = o'.attributes := by
  cases h with
  | refl o => rfl
  | cast h => exact h.attributes_eq

namespace Formula.SameButTimes

/-- The same attributes are resolved for the two formulas. -/
theorem attributes_eq {f f' : Formula} (h : f.SameButTimes f') : f.attributes = f'.attributes := by
  induction f generalizing f' with
  | allOf parts ih | anyOf parts ih | matchOf parts ih =>
      cases h with
      | _ hparts =>
          rw [attributes, attributes, attributesAll_eq_flatMap, attributesAll_eq_flatMap,
            List.flatMap_def, List.flatMap_def, map_eq_map_of_forall₂ hparts ih]
  | negation part ih =>
      cases h with
      | negation hpart => rw [attributes, attributes, ih hpart]
  | comparison op operands =>
      cases h with
      | comparison _ hoperands =>
          rw [attributes, attributes, List.flatMap_def, List.flatMap_def,
            map_eq_map_of_forall₂ hoperands fun _ _ _ ho => ho.attributes_eq]
  | textTest op operands =>
      cases h with
      | textTest _ hoperands =>
          rw [attributes, attributes, List.flatMap_def, List.flatMap_def,
            map_eq_map_of_forall₂ hoperands fun _ _ _ ho => ho.attributes_eq]
  | constant b =>
      cases h
      rfl

/-- The two formulas have one value, if their comparisons have the same values. -/
theorem truth_eq {leaf leaf' : Comparison → List Operand → Bool}
    (hleaf : ∀ op operands operands',
      List.Forall₂ Operand.SameButTimes operands operands' →
        leaf op operands = leaf' op operands')
    {f f' : Formula} (h : f.SameButTimes f') : f.truth leaf = f'.truth leaf' := by
  -- The induction is on the first formula; the second one has the same connectives.
  induction f generalizing f' with
  | allOf parts ih | matchOf parts ih =>
      cases h with
      | _ hparts =>
          rw [truth, truth, truths_eq_map, truths_eq_map, map_eq_map_of_forall₂ hparts ih,
            isEmpty_eq_of_forall₂ hparts]
  | anyOf parts ih =>
      cases h with
      | anyOf hparts =>
          rw [truth, truth, truths_eq_map, truths_eq_map, map_eq_map_of_forall₂ hparts ih]
  | negation part ih =>
      cases h with
      | negation hpart => rw [truth, truth, ih hpart]
  | comparison op operands =>
      cases h with
      | comparison _ hoperands => exact hleaf op _ _ hoperands
  | textTest op operands =>
      cases h
      rfl
  | constant b =>
      cases h
      rfl

end Formula.SameButTimes

/-- The fields of the two targets have the same values, but for the spelling of times. -/
theorem TargetAttributes.SameButTimes.last? {target target' : TargetAttributes}
    (h : SameButTimes target target') (path : String) :
    Option.Rel Operand.SameButTimes (Table.last? path target) (Table.last? path target') := by
  induction h with
  | nil => exact .none
  | @cons e e' rest rest' hentry _ ih =>
      obtain ⟨k, v⟩ := e
      obtain ⟨k', v'⟩ := e'
      obtain ⟨hkey, hvalue⟩ := hentry
      cases hkey
      rw [Table.last?, Table.last?]
      generalize Table.last? path rest = a, Table.last? path rest' = b at ih ⊢
      cases ih with
      | some hlater => exact .some hlater
      | none =>
          change Option.Rel _ (if k = path then some v else none)
            (if k = path then some v' else none)
          split
          · exact .some hvalue
          · exact .none

/-- Formulas that are the same but for the spelling of times have one value, of targets that are
the same but for it, whatever is resolved of attributes. -/
theorem Formula.SameButTimes.holds_eq {f f' : Formula} (h : f.SameButTimes f')
    {target target' : TargetAttributes} (htarget : target.SameButTimes target')
    (resolved : Resolved) : f.holds ⟨target, resolved⟩ = f'.holds ⟨target', resolved⟩ := by
  have hsources : (Environment.mk target resolved).sources.SameButTimes
      (Environment.mk target' resolved).sources := ⟨htarget.last?, rfl, rfl⟩
  rw [holds_eq_truth_sources, holds_eq_truth_sources]
  exact h.truth_eq fun op _ _ hoperands => hsources.testAll op hoperands

/-! ## What a decision sees of them -/

/-- Two requests are the same, but for the spelling of times in what is known of the target. -/
structure Request.SameButTimes (q q' : Request) : Prop where
  right : q.right = q'.right
  target : q.target = q'.target
  targetAttributes : q.targetAttributes.SameButTimes q'.targetAttributes

/-- Some member of a list has a property if and only if some member of a related list has it, when
related members have it together. -/
theorem exists_mem_iff_of_forall₂ {α β : Type} {R : α → β → Prop} {p : α → Prop} {p' : β → Prop}
    {xs : List α} {ys : List β} (h : List.Forall₂ R xs ys) (hp : ∀ x y, R x y → (p x ↔ p' y)) :
    (∃ x ∈ xs, p x) ↔ ∃ y ∈ ys, p' y := by
  induction h with
  | nil => simp
  | cons hxy _ ih => rw [List.exists_mem_cons_iff, List.exists_mem_cons_iff, hp _ _ hxy, ih]

section Decisions

variable {q q' : Request}

/-- A rule grants both of them or neither, also where its own times are spelled in another way. -/
theorem Rule.SameButTimes.grants_iff {r r' : Rule} (h : r.SameButTimes r')
    (hq : q.SameButTimes q') (claims : Claims) (clock : Clock) :
    r.Grants q claims clock ↔ r'.Grants q' claims clock := by
  have hsources : (Sources.direct q.targetAttributes claims clock.time?).SameButTimes
      (.direct q'.targetAttributes claims clock.time?) := ⟨hq.targetAttributes.last?, rfl, rfl⟩
  have hvalue := h.formula.truth_eq fun op _ _ hoperands => hsources.testAll op hoperands
  rw [Rule.grants_iff_direct, Rule.grants_iff_direct, h.acl, h.targets, hq.right, hq.target,
    hvalue]

/-- So the two requests are decided alike. -/
theorem Request.SameButTimes.decide_eq {rules rules' : List Rule} (hq : q.SameButTimes q')
    (hrules : List.Forall₂ Rule.SameButTimes rules rules') (subject : Option Claims)
    (clock : Clock) : q.decide rules subject clock = q'.decide rules' subject clock := by
  cases subject with
  | none => rfl
  | some claims =>
      have hgranted : q.grantedTo rules claims clock = q'.grantedTo rules' claims clock := by
        rw [Bool.eq_iff_iff, grantedTo_iff, grantedTo_iff]
        exact exists_mem_iff_of_forall₂ hrules fun _ _ hr => hr.grants_iff hq claims clock
      rw [decide_some, decide_some, hgranted]

end Decisions

/-- The meaning of time windows.  At an instant a comparison of the local time or the time in UTC
with a written time holds, unless it is `ne`, exactly when the text is that of a time of day and
the minute of the day, in seconds, is related to the seconds of that time; `ne` is the negation of
`eq`.  Of a written time only the time matters: formulas that are the same but for the spelling
of times have one value, of targets that are the same but for it, whatever is resolved of
attributes and in what is resolved for them at that instant, and decisions over rules with such
formulas are the same. -/
theorem time_windows {now : Timestamp} (hnow : now.utcDateSupported = true) :
    (∀ (g : Global) (m : Int), now.minute? g = some m →
      ∀ (text : String) (target : TargetAttributes) (claims : Claims) (declared : List Attribute),
        (∀ op : Comparison, op ≠ .ne →
          ((Formula.window op g text).holdsAt target claims now declared = true ↔
            ∃ t, TimeOfDay.read? text.toList = some t ∧ op.Relates (60 * m) t.seconds)) ∧
        (Formula.window .ne g text).holdsAt target claims now declared =
          !(Formula.window .eq g text).holdsAt target claims now declared) ∧
    (∀ (f f' : Formula) (target target' : TargetAttributes),
      f.SameButTimes f' → target.SameButTimes target' →
        (∀ resolved, f.holds ⟨target, resolved⟩ = f'.holds ⟨target', resolved⟩) ∧
        (∀ claims declared,
          f.holdsAt target claims now declared = f'.holdsAt target' claims now declared)) ∧
    (∀ (q q' : Request) (rules rules' : List Rule) (subject : Option Claims),
      q.SameButTimes q' → List.Forall₂ Rule.SameButTimes rules rules' →
        q.decideAt rules subject now = q'.decideAt rules' subject now) := by
  refine ⟨?_, ?_, ?_⟩
  · intro g m hminute text target claims declared
    exact ⟨fun op hop => Formula.holdsAt_window_iff hminute hop text target claims declared,
      Formula.holdsAt_window_ne text target claims declared⟩
  · intro f f' target target' hformula htarget
    refine ⟨hformula.holds_eq htarget, ?_⟩
    intro claims declared
    rw [Formula.holdsAt, Formula.holdsAt, hformula.attributes_eq, hformula.holds_eq htarget]
  · intro q q' rules rules' subject hq hrules
    rw [q.decideAt_of_utcDateSupported hnow, q'.decideAt_of_utcDateSupported hnow,
      hq.decide_eq hrules]

/-! ## A quarter past midnight -/

/-- Some seconds after a quarter past midnight, two hours ahead of UTC. -/
def pastMidnight : Timestamp :=
  ⟨⟨2024, 6, 3, by decide⟩, ⟨0, 15, 30, by decide⟩, 125000000, ⟨120, by decide⟩, by decide⟩

/-- Everyone may read a shell from some time on, in UTC, if it opens before eight. -/
def lateRule (since : String) : Rule :=
  ⟨⟨.allow, Rights.ofList [.read], []⟩, [.identifiable "(AAS)*"],
    .allOf
      [.window .ge .utcNow since,
        .comparison .lt [.field "$sme.opens#value", .time "08:00"]]⟩

/-- A request to read a shell that opens at some time. -/
def openingRequest (opens : String) : Request :=
  ⟨.read, .identifiable "(AAS)42", [("$sme.opens#value", .time opens)]⟩

/-- In UTC it is a quarter past ten, on the day before.  The seconds of the clock do not count,
those of a written time do, and a text of no time differs from the clock but does not compare
with it.  A rule that holds from then on grants the request, in whatever way the times are
spelled. -/
theorem late_reads_shell :
    pastMidnight.utcDateSupported = true ∧
    pastMidnight.minute? .localNow = some 15 ∧ pastMidnight.minute? .utcNow = some 1335 ∧
    (Formula.window .eq .utcNow "22:15").holdsAt [] [] pastMidnight [] = true ∧
    (Formula.window .lt .utcNow "22:15:01").holdsAt [] [] pastMidnight [] = true ∧
    (Formula.window .gt .localNow "00:14:59").holdsAt [] [] pastMidnight [] = true ∧
    (Formula.window .ne .localNow "noon").holdsAt [] [] pastMidnight [] = true ∧
    (lateRule "22:15").SameButTimes (lateRule " 22:15:00 ") ∧
    (openingRequest "06:30").SameButTimes (openingRequest "06:30:00") ∧
    (openingRequest "06:30:00").decideAt [lateRule " 22:15:00 "] (some []) pastMidnight =
      .ok true := by
  have hutc : pastMidnight.minute? .utcNow = some 1335 := rfl
  have hlocal : pastMidnight.minute? .localNow = some 15 := rfl
  have hrule : (lateRule "22:15").SameButTimes (lateRule " 22:15:00 ") := by
    refine ⟨rfl, rfl, .allOf (.cons ?_ (.cons ?_ .nil))⟩
    · exact .comparison .ge (.cons (.refl _) (.cons (.time rfl) .nil))
    · exact .comparison .lt (.cons (.refl _) (.cons (.refl _) .nil))
  have hrequest : (openingRequest "06:30").SameButTimes (openingRequest "06:30:00") :=
    ⟨rfl, rfl, .cons ⟨rfl, .time rfl⟩ .nil⟩
  have hgranted : (openingRequest "06:30").decideAt [lateRule "22:15"] (some []) pastMidnight =
      .ok true := rfl
  obtain ⟨hwindows, _, hdecisions⟩ := @time_windows pastMidnight rfl
  have hsame := hdecisions _ _ _ _ (some []) hrequest (.cons hrule .nil)
  refine ⟨rfl, hlocal, hutc, ?_, ?_, ?_, ?_, hrule, hrequest, hsame.symm.trans hgranted⟩
  · rw [(hwindows .utcNow 1335 hutc "22:15" [] [] []).1 .eq (by decide)]
    exact ⟨⟨22, 15, 0, by decide⟩, rfl, by decide⟩
  · rw [(hwindows .utcNow 1335 hutc "22:15:01" [] [] []).1 .lt (by decide)]
    exact ⟨⟨22, 15, 1, by decide⟩, rfl, by decide⟩
  · rw [(hwindows .localNow 15 hlocal "00:14:59" [] [] []).1 .gt (by decide)]
    exact ⟨⟨0, 14, 59, by decide⟩, rfl, by decide⟩
  · rw [(hwindows .localNow 15 hlocal "noon" [] [] []).2, Bool.not_eq_true', ← Bool.not_eq_true,
      (hwindows .localNow 15 hlocal "noon" [] [] []).1 .eq (by decide)]
    rintro ⟨t, ht, _⟩
    cases ht

end AssetAccess
