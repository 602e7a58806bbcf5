import AssetAccess.Formula.Basic
import AssetAccess.Json.Shape
set_option autoImplicit false

/-!
# The wire form of formulas

Every node is an object with a single member, its key the kind of the node.  The
operand of a date part may also be a bare timestamp text.  Each type has an encoder
and, beside it, the decoder that reads its form.
-/

namespace AssetAccess

open Json (keyed)

namespace Global

/-- The name of a global attribute. -/
def name : Global → String
  | .localNow => "LOCALNOW"
  | .utcNow => "UTCNOW"
  | .clientNow => "CLIENTNOW"
  | .anonymous => "ANONYMOUS"

/-- The global attribute of a name. -/
def ofName? (s : String) : Option Global :=
  if s = "LOCALNOW" then some .localNow
  else if s = "UTCNOW" then some .utcNow
  else if s = "CLIENTNOW" then some .clientNow
  else if s = "ANONYMOUS" then some .anonymous
  else none

theorem ofName?_name (g : Global) : ofName? g.name = some g := by cases g <;> rfl

end Global

namespace Attribute

/-- The wire form of an attribute. -/
def encode : Attribute → Json
  | .claim path => keyed "CLAIM" (.string path)
  | .global g => keyed "GLOBAL" (.string g.name)
  | .reference name => keyed "REFERENCE" (.string name)

/-- The attribute of a wire form. -/
def decode? : Json → Option Attribute
  | .object [(key, v)] =>
    if key = "CLAIM" then v.string?.map .claim
    else if key = "GLOBAL" then (v.name?.bind Global.ofName?).map .global
    else if key = "REFERENCE" then v.string?.map .reference
    else none
  | _ => none

theorem decode?_encode (a : Attribute) : decode? a.encode = some a := by
  cases a with
  | claim path => rfl
  | global g =>
      have hkey : decode? (encode (.global g)) = (Global.ofName? g.name).map .global := rfl
      rw [hkey, Global.ofName?_name]
      rfl
  | reference name => rfl

end Attribute

namespace Timestamp

/-- A timestamp as a text. -/
def encode (t : Timestamp) : Json := .string (String.ofList t.write)

/-- The timestamp of a text node. -/
def decode? : Json → Option Timestamp
  | .string s => read? s.toList
  | _ => none

end Timestamp

namespace DatePart

/-- The key of a date part. -/
def key : DatePart → String
  | .dayOfWeek => "$dayOfWeek"
  | .dayOfMonth => "$dayOfMonth"
  | .month => "$month"
  | .year => "$year"

/-- The date part of a key. -/
def ofKey? (s : String) : Option DatePart :=
  if s = "$dayOfWeek" then some .dayOfWeek
  else if s = "$dayOfMonth" then some .dayOfMonth
  else if s = "$month" then some .month
  else if s = "$year" then some .year
  else none

theorem ofKey?_key (p : DatePart) : ofKey? p.key = some p := by cases p <;> rfl

end DatePart

namespace CastType

/-- The key of a cast. -/
def key : CastType → String
  | .text => "$strCast"
  | .number => "$numCast"
  | .boolean => "$boolCast"
  | .hex => "$hexCast"
  | .dateTime => "$dateTimeCast"
  | .time => "$timeCast"

/-- The cast of a key. -/
def ofKey? (s : String) : Option CastType :=
  if s = "$strCast" then some .text
  else if s = "$numCast" then some .number
  else if s = "$boolCast" then some .boolean
  else if s = "$hexCast" then some .hex
  else if s = "$dateTimeCast" then some .dateTime
  else if s = "$timeCast" then some .time
  else none

theorem ofKey?_key (c : CastType) : ofKey? c.key = some c := by cases c <;> rfl

end CastType

namespace Operand

/-- The wire form of an operand. -/
def encode : Operand → Json
  | .field path => keyed "$field" (.string path)
  | .text s => keyed "$strVal" (.string s)
  | .number x => keyed "$numVal" (.number (.float x))
  | .boolean b => keyed "$boolean" (.bool b)
  | .hex s => keyed "$hexVal" (.string s)
  | .dateTime t => keyed "$dateTimeVal" t.encode
  | .time s => keyed "$timeVal" (.string s)
  | .attribute a => keyed "$attribute" a.encode
  | .datePart p o => keyed p.key o.encode
  | .cast c o => keyed c.key o.encode

/-- The operand that holds no other one, by its key. -/
def decodeLeaf? (key : String) (v : Json) : Option Operand :=
  if key = "$field" then v.string?.map .field
  else if key = "$strVal" then v.string?.map .text
  else if key = "$numVal" then v.finite?.map .number
  else if key = "$boolean" then v.bool?.map .boolean
  else if key = "$hexVal" then v.string?.map .hex
  else if key = "$dateTimeVal" then (Timestamp.decode? v).map .dateTime
  else if key = "$timeVal" then v.string?.map .time
  else if key = "$attribute" then (Attribute.decode? v).map .attribute
  else none

/-- The operand of a wire form.  Where a date part is taken, a text stands for the
timestamp it reads as. -/
def decode? : Json → Option Operand
  | .object [(key, v)] =>
    match DatePart.ofKey? key with
    | some p =>
      match Timestamp.decode? v with
      | some t => some (.datePart p (.dateTime t))
      | none => (decode? v).map (.datePart p)
    | none =>
      match CastType.ofKey? key with
      | some c => (decode? v).map (.cast c)
      | none => decodeLeaf? key v
  | _ => none

end Operand

namespace TextOperand

/-- The wire form of an operand of a text test. -/
def encode : TextOperand → Json
  | .field path => keyed "$field" (.string path)
  | .text s => keyed "$strVal" (.string s)
  | .attribute a => keyed "$attribute" a.encode
  | .cast o => keyed "$strCast" o.encode

/-- The operand of a wire form. -/
def decode? : Json → Option TextOperand
  | .object [(key, v)] =>
    if key = "$field" then v.string?.map .field
    else if key = "$strVal" then v.string?.map .text
    else if key = "$attribute" then (Attribute.decode? v).map .attribute
    else if key = "$strCast" then (Operand.decode? v).map .cast
    else none
  | _ => none

end TextOperand

namespace Comparison

/-- The key of a comparison. -/
def key : Comparison → String
  | .eq => "$eq"
  | .ne => "$ne"
  | .le => "$le"
  | .lt => "$lt"
  | .ge => "$ge"
  | .gt => "$gt"

/-- The comparison of a key. -/
def ofKey? (s : String) : Option Comparison :=
  if s = "$eq" then some .eq
  else if s = "$ne" then some .ne
  else if s = "$le" then some .le
  else if s = "$lt" then some .lt
  else if s = "$ge" then some .ge
  else if s = "$gt" then some .gt
  else none

end Comparison

namespace TextTest

/-- The key of a text test. -/
def key : TextTest → String
  | .contains => "$contains"
  | .startsWith => "$starts-with"
  | .endsWith => "$ends-with"
  | .regex => "$regex"

/-- The text test of a key. -/
def ofKey? (s : String) : Option TextTest :=
  if s = "$contains" then some .contains
  else if s = "$starts-with" then some .startsWith
  else if s = "$ends-with" then some .endsWith
  else if s = "$regex" then some .regex
  else none

end TextTest

namespace Formula

mutual

/-- The wire form of a formula. -/
def encode : Formula → Json
  | .allOf parts => keyed "$and" (.array (encodeAll parts))
  | .anyOf parts => keyed "$or" (.array (encodeAll parts))
  | .negation part => keyed "$not" (encode part)
  | .comparison op operands => keyed op.key (.array (operands.map Operand.encode))
  | .textTest op operands => keyed op.key (.array (operands.map TextOperand.encode))
  | .constant b => keyed "$boolean" (.bool b)
  | .matchOf parts => keyed "$match" (.array (encodeAll parts))

/-- The wire forms of some formulas. -/
def encodeAll : List Formula → List Json
  | [] => []
  | f :: fs => encode f :: encodeAll fs

end

/-- The formula that holds no other one, by its key. -/
def decodeLeaf? (key : String) (v : Json) : Option Formula :=
  match Comparison.ofKey? key with
  | some op => (v.listOf? Operand.decode?).map (.comparison op)
  | none =>
    match TextTest.ofKey? key with
    | some op => (v.listOf? TextOperand.decode?).map (.textTest op)
    | none => if key = "$boolean" then v.bool?.map .constant else none

mutual

/-- The formula of a wire form. -/
def decode? : Json → Option Formula
  | .object [(key, v)] =>
    if key = "$and" then (decodeList? v).map .allOf
    else if key = "$or" then (decodeList? v).map .anyOf
    else if key = "$match" then (decodeList? v).map .matchOf
    else if key = "$not" then (decode? v).map .negation
    else decodeLeaf? key v
  | _ => none

/-- The formulas of an array. -/
def decodeList? : Json → Option (List Formula)
  | .array items => decodeAll? items
  | _ => none

/-- The formulas of some wire forms. -/
def decodeAll? : List Json → Option (List Formula)
  | [] => some []
  | v :: vs =>
    match decode? v with
    | none => none
    | some f => (decodeAll? vs).map (f :: ·)

end

end Formula

namespace Query

/-- The wire form of a query.  What is not there is left out. -/
def encode (q : Query) : Json :=
  let select :=
    match q.select with
    | some s => [("$select", Json.string s)]
    | none => []
  let condition :=
    match q.condition with
    | some f => [("$condition", f.encode)]
    | none => []
  .object (select ++ condition)

/-- The query of a wire form. -/
def decode? (v : Json) : Option Query := do
  match ← v.slots? ["$select", "$condition"] with
  | [select, condition] =>
    let select ← select.omissible Json.string?
    let condition ← condition.omissible Formula.decode?
    some ⟨select, condition⟩
  | _ => none

end Query

end AssetAccess
