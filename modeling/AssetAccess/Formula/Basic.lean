import AssetAccess.Calendar.Timestamp
import AssetAccess.Number.Binary64
set_option autoImplicit false

/-!
# Formulas

The language that access rules and search conditions share: operands, comparisons
and text tests over them, and logical connectives.  The operands of a comparison are
a list, so that a formula with the wrong number of them is a formula still; whoever
evaluates it decides what it means.
-/

namespace AssetAccess

/-- A quantity of the environment. -/
inductive Global where
  /-- the time of day where the service runs -/
  | localNow
  /-- the time of day in UTC -/
  | utcNow
  /-- the time of day where the subject is -/
  | clientNow
  /-- the subject without a name -/
  | anonymous
  deriving DecidableEq

/-- What a rule may ask of the subject and the environment. -/
inductive Attribute where
  /-- a claim of the subject, by its dotted path -/
  | claim (path : String)
  | global (g : Global)
  /-- an attribute kept elsewhere -/
  | reference (name : String)
  deriving DecidableEq

/-- A part of a date. -/
inductive DatePart where
  | dayOfWeek
  | dayOfMonth
  | month
  | year
  deriving DecidableEq

/-- The type that a cast leads to. -/
inductive CastType where
  | text
  | number
  | boolean
  | hex
  | dateTime
  | time
  deriving DecidableEq

/-- An operand of a comparison. -/
inductive Operand where
  /-- a field of the model, by its path -/
  | field (path : String)
  | text (s : String)
  | number (x : FiniteNumber)
  | boolean (b : Bool)
  /-- hexadecimal digits behind `16#` -/
  | hex (s : String)
  | dateTime (t : Timestamp)
  /-- a time of day -/
  | time (s : String)
  | attribute (a : Attribute)
  | datePart (part : DatePart) (operand : Operand)
  | cast (type : CastType) (operand : Operand)
  deriving DecidableEq

/-- An operand of a text test. -/
inductive TextOperand where
  /-- a field of the model, by its path -/
  | field (path : String)
  | text (s : String)
  | attribute (a : Attribute)
  /-- any operand, as a text -/
  | cast (operand : Operand)
  deriving DecidableEq

/-- A comparison of two operands. -/
inductive Comparison where
  | eq
  | ne
  | le
  | lt
  | ge
  | gt
  deriving DecidableEq

namespace Comparison

/-- The comparison with its operands exchanged. -/
def mirrored : Comparison → Comparison
  | .eq => .eq
  | .ne => .ne
  | .le => .ge
  | .lt => .gt
  | .ge => .le
  | .gt => .lt

end Comparison

/-- A test on two texts. -/
inductive TextTest where
  | contains
  | startsWith
  | endsWith
  | regex
  deriving DecidableEq

/-- A formula. -/
inductive Formula where
  | allOf (parts : List Formula)
  | anyOf (parts : List Formula)
  | negation (part : Formula)
  | comparison (op : Comparison) (operands : List Operand)
  | textTest (op : TextTest) (operands : List TextOperand)
  | constant (b : Bool)
  /-- a conjunction of match expressions -/
  | matchOf (parts : List Formula)

instance : Inhabited Formula := ⟨.constant false⟩

/-- A search query: what to return of the items found, and which items to find. -/
structure Query where
  /-- the projection; only `id` has a meaning -/
  select : Option String
  /-- the condition; without one every item is found -/
  condition : Option Formula

/-- The two operands of a binary operation. -/
def pair? {α : Type} : List α → Option (α × α)
  | [a, b] => some (a, b)
  | _ => none

/-- A list makes a pair exactly when it has two members. -/
theorem pair?_eq_some_iff {α : Type} (xs : List α) (p : α × α) :
    pair? xs = some p ↔ xs = [p.1, p.2] := by
  unfold pair?
  split
  · simp [Prod.ext_iff]
  · rename_i hother
    constructor
    · intro h
      cases h
    · intro h
      exact absurd h (hother _ _)

/-- Only a list of two members makes a pair. -/
theorem pair?_eq_none_iff {α : Type} (xs : List α) : pair? xs = none ↔ xs.length ≠ 2 := by
  match xs with
  | [] | [_] => simp [pair?]
  | [_, _] => simp [pair?]
  | _ :: _ :: _ :: _ => simp [pair?]

end AssetAccess
