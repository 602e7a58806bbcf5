import AssetAccess.Proofs.Search.Conditions
set_option autoImplicit false

/-!
# Casts

A cast leads to one kind of scalar, whatever it is put on, and leaves a scalar of that kind as it
is (`Scalar.kind_of_castTo?`, `Scalar.castTo?_of_kind`).  The only cast that looks beyond the
literal under it is the one to a timestamp, and what it finds there it finds through itself too.
So a cast that is repeated says nothing new (`casts_stable`).

Nor does a cast make a literal of a field.  An operand has a literal or names a field, and never
both, however many casts there are on it.
-/

namespace AssetAccess

/-- The kinds of scalars. -/
inductive ScalarKind where
  | text
  | number
  | integer
  | boolean
  deriving DecidableEq

/-- The kind of a scalar. -/
def Scalar.kind : Scalar → ScalarKind
  | .text _ => .text
  | .number _ => .number
  | .integer _ => .integer
  | .boolean _ => .boolean

/-- The kind that a cast leads to.  Hexadecimal numbers and times are texts, and no cast leads to
an integer. -/
def CastType.kind : CastType → ScalarKind
  | .text => .text
  | .number => .number
  | .boolean => .boolean
  | .hex => .text
  | .dateTime => .text
  | .time => .text

theorem CastType.kind_ne_integer (c : CastType) : c.kind ≠ .integer := by cases c <;> decide

/-! ## Scalars under a cast -/

namespace Scalar

/-- A scalar under a cast. -/
def castTo? : CastType → Scalar → Option Scalar
  | .text, v => some (.text v.display)
  | .number, v => v.toNumber?
  | .boolean, v => v.toBoolean?
  | .hex, v => v.toHex?
  | .dateTime, v => some (.text v.display)
  | .time, v => some (.text v.display)

theorem kind_of_toNumber? {v w : Scalar} (h : v.toNumber? = some w) : w.kind = .number := by
  cases v with
  | text s =>
      obtain ⟨x, _, rfl⟩ := Option.map_eq_some_iff.mp h
      rfl
  | number x | integer i =>
      cases h
      rfl
  | boolean b => cases h

theorem kind_of_toBoolean? {v w : Scalar} (h : v.toBoolean? = some w) : w.kind = .boolean := by
  cases v with
  | text s =>
      rw [toBoolean?] at h
      split at h
      · cases h
        rfl
      · split at h
        · cases h
          rfl
        · cases h
  | boolean b =>
      cases h
      rfl
  | number x | integer i => cases h

theorem kind_of_toHex? {v w : Scalar} (h : v.toHex? = some w) : w.kind = .text := by
  cases v with
  | text s | integer i =>
      cases h
      rfl
  | number x =>
      cases x with
      | finite x =>
          cases h
          rfl
      | infinite negative | notANumber => cases h
  | boolean b => cases h

/-- What comes of a cast has the kind that the cast leads to. -/
theorem kind_of_castTo? {c : CastType} {v w : Scalar} (h : castTo? c v = some w) :
    w.kind = c.kind := by
  cases c with
  | text | dateTime | time =>
      cases h
      rfl
  | number => exact kind_of_toNumber? h
  | boolean => exact kind_of_toBoolean? h
  | hex => exact kind_of_toHex? h

/-- A scalar of the kind that a cast leads to is left as it is. -/
theorem castTo?_of_kind {c : CastType} {v : Scalar} (h : v.kind = c.kind) :
    castTo? c v = some v := by
  cases c with
  | text | hex | dateTime | time =>
      cases v with
      | text s => rfl
      | _ => cases h
  | number =>
      cases v with
      | number x => rfl
      | _ => cases h
  | boolean =>
      cases v with
      | boolean b => rfl
      | _ => cases h

end Scalar

/-! ## Operands under casts -/

namespace Operand

/-- The literal of a cast is the text of the timestamp that the cast denotes, if it denotes one,
and otherwise the literal under it, cast. -/
theorem literal?_cast (c : CastType) (o : Operand) :
    (cast c o).literal? =
      match (cast c o).dateTime? with
      | some t => some (.text (String.ofList t.writeMillis))
      | none => o.literal?.bind (Scalar.castTo? c) := by
  cases c with
  | number | boolean | hex => rfl
  | text | time => exact Option.map_eq_bind
  | dateTime =>
      rw [literal?, dateTime?]
      cases o.dateTime? with
      | some t => rfl
      | none => exact Option.map_eq_bind

/-- A cast denotes what it denotes when it is repeated. -/
theorem dateTime?_cast_cast (c : CastType) (o : Operand) :
    (cast c (cast c o)).dateTime? = (cast c o).dateTime? := by
  cases c <;> rfl

/-- The literal of a cast has the kind that the cast leads to. -/
theorem kind_of_literal?_cast {c : CastType} {o : Operand} {v : Scalar}
    (h : (cast c o).literal? = some v) : v.kind = c.kind := by
  rw [literal?_cast] at h
  split at h
  · rename_i t hdate
    cases c with
    | dateTime =>
        cases h
        rfl
    | _ => cases hdate
  · obtain ⟨w, _, hw⟩ := Option.bind_eq_some_iff.mp h
    exact Scalar.kind_of_castTo? hw

/-- A literal of the kind that a cast leads to is left as it is, unless the cast finds a
timestamp. -/
theorem literal?_cast_of_kind {c : CastType} {o : Operand} {v : Scalar}
    (hdate : (cast c o).dateTime? = none) (hliteral : o.literal? = some v)
    (hkind : v.kind = c.kind) : (cast c o).literal? = some v := by
  rw [literal?_cast, hdate, hliteral]
  exact Scalar.castTo?_of_kind hkind

/-- A cast that is repeated has the same literal. -/
theorem literal?_cast_cast (c : CastType) (o : Operand) :
    (cast c (cast c o)).literal? = (cast c o).literal? := by
  have htwice := dateTime?_cast_cast c o
  cases hdate : (cast c o).dateTime? with
  | some t => rw [literal?_cast c (cast c o), literal?_cast c o, htwice, hdate]
  | none =>
      rw [hdate] at htwice
      cases hliteral : (cast c o).literal? with
      | none => rw [literal?_cast, htwice, hliteral, Option.bind_none]
      | some v => exact literal?_cast_of_kind htwice hliteral (kind_of_literal?_cast hliteral)

/-- What is under all casts stays under further ones. -/
theorem bare_casts (casts : List CastType) (o : Operand) :
    (casts.foldr cast o).bare = o.bare := by
  induction casts with
  | nil => rfl
  | cons c casts ih => exact ih

end Operand

/-- Casts are stable.  A cast that is repeated has the literal, denotes the timestamp and names
the field that it has, denotes and names already.  Whatever a cast is put on, its literal is of
the kind that the cast leads to, which is never an integer; and a literal of that kind stays,
where the cast finds no timestamp.  No operand has a literal and names a field at once.  A field
under any casts is the field, and has no literal. -/
theorem casts_stable :
    (∀ (c : CastType) (o : Operand),
      (Operand.cast c (.cast c o)).literal? = (Operand.cast c o).literal? ∧
      (Operand.cast c (.cast c o)).dateTime? = (Operand.cast c o).dateTime? ∧
      (Operand.cast c (.cast c o)).indexName? = (Operand.cast c o).indexName?) ∧
    (∀ (c : CastType) (o : Operand) (v : Scalar),
      ((Operand.cast c o).literal? = some v → v.kind = c.kind ∧ v.kind ≠ .integer) ∧
      ((Operand.cast c o).dateTime? = none → o.literal? = some v → v.kind = c.kind →
        (Operand.cast c o).literal? = some v)) ∧
    (∀ o : Operand, o.literal? = none ∨ o.indexName? = none) ∧
    (∀ (path : String) (casts : List CastType),
      (casts.foldr Operand.cast (.field path)).literal? = none ∧
      (casts.foldr Operand.cast (.field path)).indexName? = Field.indexName? path) := by
  refine ⟨?_, ?_, ?_, ?_⟩
  · intro c o
    exact ⟨o.literal?_cast_cast c, o.dateTime?_cast_cast c, rfl⟩
  · intro c o v
    refine ⟨fun hliteral => ?_, Operand.literal?_cast_of_kind⟩
    have hkind := Operand.kind_of_literal?_cast hliteral
    refine ⟨hkind, ?_⟩
    rw [hkind]
    exact c.kind_ne_integer
  · intro o
    cases hliteral : o.literal? with
    | none => exact .inl rfl
    | some v => exact .inr (Operand.indexName?_of_literal? hliteral)
  · intro path casts
    have hbare := Operand.bare_casts casts (.field path)
    refine ⟨Operand.literal?_of_bare_field hbare, ?_⟩
    rw [Operand.indexName?_eq_bare, hbare]
    rfl

/-! ## A year under casts -/

/-- The year of a date, as a number. -/
def yearNumber : Operand := .cast .number (.datePart .year (.text "2024-06-02T12:00:00+02:00"))

/-- The whole number. -/
def yearLiteral : Scalar := .number (Binary64.ofInt 2024)

theorem literal?_year :
    (Operand.datePart .year (.text "2024-06-02T12:00:00+02:00")).literal? =
      some (.integer 2024) := by
  decide +kernel

theorem literal?_yearNumber : yearNumber.literal? = some yearLiteral := by
  decide +kernel

/-- The year is an integer, and a number under the cast to a number.  As a number it stays what it
is under a second cast of the kind. -/
theorem year_number_stays :
    (Operand.datePart .year (.text "2024-06-02T12:00:00+02:00")).literal? =
      some (.integer 2024) ∧
    yearNumber.literal? = some yearLiteral ∧
    yearLiteral.kind = CastType.number.kind ∧
    (Operand.cast .number yearNumber).literal? = some yearLiteral := by
  obtain ⟨_, hkinds, _, _⟩ := casts_stable
  obtain ⟨hkind, _⟩ := (hkinds .number _ yearLiteral).1 literal?_yearNumber
  exact ⟨literal?_year, literal?_yearNumber, hkind,
    (hkinds .number yearNumber yearLiteral).2 rfl literal?_yearNumber hkind⟩

end AssetAccess
