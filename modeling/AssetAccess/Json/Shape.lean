import AssetAccess.Json.Basic
set_option autoImplicit false

/-!
# Shapes of data trees

What the typed values of the wire forms have in common.

* A *record* is an object whose known keys occur at most once, other keys being
  ignored; or an array with the fields in their order.  A field that is not there
  counts differently in the two forms, so a `Slot` says in which way it is missing.
* A *variant* is an object with a single member, whose key names the case.
* A *name* is one of a fixed set of texts; an object from the name to null is the
  same.
-/

namespace AssetAccess.Json

/-- What a record holds for one of its fields. -/
inductive Slot where
  /-- a value -/
  | given (v : Json)
  /-- the object has no such key -/
  | absent
  /-- the array ends before the field -/
  | cut

namespace Slot

/-- A field that has to be there. -/
def required {α : Type} (decode : Json → Option α) : Slot → Option α
  | .given v => decode v
  | .absent => none
  | .cut => none

/-- A field that may be null or have no key, but has its place in an array. -/
def optional {α : Type} (decode : Json → Option α) : Slot → Option (Option α)
  | .given .null => some none
  | .given v => (decode v).map some
  | .absent => some none
  | .cut => none

/-- A field that may be null or missing in any way. -/
def omissible {α : Type} (decode : Json → Option α) : Slot → Option (Option α)
  | .given .null => some none
  | .given v => (decode v).map some
  | .absent => some none
  | .cut => some none

/-- A field with a default for when it is missing in any way; null is no value of it. -/
def defaulted {α : Type} (decode : Json → Option α) (default : α) : Slot → Option α
  | .given v => decode v
  | .absent => some default
  | .cut => some default

end Slot

/-- The values of the members with this key. -/
def valuesOf (key : String) (members : List (String × Json)) : List Json :=
  (members.filter fun m => m.1 == key).map fun m => m.2

/-- The slots of the fields of an object, in the order of their names. -/
def objectSlots? (members : List (String × Json)) : List String → Option (List Slot)
  | [] => some []
  | name :: names => do
    let slot ←
      match valuesOf name members with
      | [] => some Slot.absent
      | [v] => some (.given v)
      | _ :: _ :: _ => none
    let slots ← objectSlots? members names
    some (slot :: slots)

/-- The slots of the fields of an array, in the order of their names. -/
def arraySlots? : List Json → List String → Option (List Slot)
  | [], [] => some []
  | _ :: _, [] => none
  | [], _ :: names => (arraySlots? [] names).map (Slot.cut :: ·)
  | v :: vs, _ :: names => (arraySlots? vs names).map (Slot.given v :: ·)

/-- The slots of a record with these field names. -/
def slots? (names : List String) : Json → Option (List Slot)
  | .object members => objectSlots? members names
  | .array items => arraySlots? items names
  | _ => none

/-- The items of an array, each decoded. -/
def listOf? {α : Type} (decode : Json → Option α) : Json → Option (List α)
  | .array items => items.mapM decode
  | _ => none

/-- The members of an object, each value decoded. -/
def mapOf? {α : Type} (decode : Json → Option α) : Json → Option (List (String × α))
  | .object members => members.mapM fun m => (decode m.2).map fun a => (m.1, a)
  | _ => none

/-- The name in a unit case. -/
def name? : Json → Option String
  | .string s => some s
  | .object [(key, .null)] => some key
  | _ => none

/-- A text. -/
def string? : Json → Option String
  | .string s => some s
  | _ => none

/-- A truth value. -/
def bool? : Json → Option Bool
  | .bool b => some b
  | _ => none

/-- A number, as a double; an integer goes to the nearest one. -/
def finite? : Json → Option FiniteNumber
  | .number n => n.toFinite?
  | _ => none

end AssetAccess.Json
