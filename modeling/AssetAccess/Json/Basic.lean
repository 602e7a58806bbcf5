import AssetAccess.Number.Binary64
import AssetAccess.Table
set_option autoImplicit false

/-!
# Data trees

The tree of a JSON text.  Integers and floats are different numbers, the members of
an object keep their order and their repetitions, and a part of a text that is
well formed but stands for no value is a leaf of its own: a number beyond the range
of a double, a text with half a surrogate pair, or a container nested too deep.
Such a leaf is harmless where nobody reads it.
-/

namespace AssetAccess

/-- A number as data files hold it. -/
inductive Numeral where
  /-- a whole number written without point or exponent -/
  | integer (i : Int)
  /-- any other number -/
  | float (x : FiniteNumber)
  deriving DecidableEq

namespace Numeral

/-- The double that a number stands for; nothing where it is beyond the range. -/
def toFinite? : Numeral → Option FiniteNumber
  | .float x => some x
  | .integer i =>
    match Binary64.ofInt i with
    | .finite x => some x
    | .infinite _ => none
    | .notANumber => none

end Numeral

/-- A data tree. -/
inductive Json where
  | null
  | bool (b : Bool)
  | number (n : Numeral)
  | string (s : String)
  | array (items : List Json)
  | object (members : List (String × Json))
  /-- well-formed text without a value -/
  | unreadable

namespace Json

instance : Inhabited Json := ⟨.null⟩

/-- The value of a key in an object; of repeated keys the last one counts. -/
def get? (key : String) : Json → Option Json
  | .object members => Table.last? key members
  | _ => none

/-- The members of an object. -/
def members? : Json → Option (List (String × Json))
  | .object members => some members
  | _ => none

mutual

/-- Every part of the tree stands for a value. -/
def isReadable : Json → Bool
  | .array items => allReadable items
  | .object members => allMembersReadable members
  | .unreadable => false
  | _ => true

/-- Every part of every item stands for a value. -/
def allReadable : List Json → Bool
  | [] => true
  | v :: rest => isReadable v && allReadable rest

/-- Every part of every member stands for a value. -/
def allMembersReadable : List (String × Json) → Bool
  | [] => true
  | (_, v) :: rest => isReadable v && allMembersReadable rest

end

/-- An object with a single member. -/
def keyed (key : String) (value : Json) : Json := .object [(key, value)]

/-- A whole number. -/
def ofNat (n : Nat) : Json := .number (.integer n)

/-- A value, or null for none. -/
def ofOption {α : Type} (encode : α → Json) : Option α → Json
  | some a => encode a
  | none => .null

end Json

end AssetAccess
