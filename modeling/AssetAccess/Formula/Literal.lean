import AssetAccess.Field
import AssetAccess.Formula.Basic
import AssetAccess.Json.Basic
import AssetAccess.Number.Hexadecimal
import AssetAccess.Number.Notation
import AssetAccess.Text.Blank
set_option autoImplicit false

/-!
# Literals

What an operand says without knowing a document: the scalar it denotes, the
timestamp it denotes, and the field it names.  Casts change the type of a scalar and
are looked through for a field.  A field or an attribute has no scalar.

Everything here is read off the operand alone.  `literal?` and `indexName?` are never
both defined: a cast of a field stays without a literal however often it is cast.
-/

namespace AssetAccess

/-- A literal value. -/
inductive Scalar where
  | text (s : String)
  | number (x : Binary64)
  | integer (i : Int)
  | boolean (b : Bool)
  deriving DecidableEq

namespace Scalar

/-- The text of a text. -/
def text? : Scalar → Option String
  | .text s => some s
  | _ => none

/-- The scalar as a text. -/
def display : Scalar → String
  | .text s => s
  | .number x => String.ofList (Notation.literal x)
  | .integer i => String.ofList (Text.decimalInt i)
  | .boolean true => "true"
  | .boolean false => "false"

/-- The scalar in a data tree.  An infinity or no number is null there. -/
def toJson : Scalar → Json
  | .text s => .string s
  | .number x => Json.ofOption (fun y => .number (.float y)) x.finite?
  | .integer i => .number (.integer i)
  | .boolean b => .bool b

/-- A text as a number: white space around it is dropped, and only a finite number counts. -/
def readNumber? (s : String) : Option Binary64 :=
  match Binary64.ofText? (Text.trim s.toList) with
  | some (.finite x) => some (.finite x)
  | _ => none

/-- A scalar as a number. -/
def toNumber? : Scalar → Option Scalar
  | .number x => some (.number x)
  | .integer i => some (.number (Binary64.ofInt i))
  | .text s => (readNumber? s).map .number
  | .boolean _ => none

/-- A scalar as a truth value: the two words for it in any case. -/
def toBoolean? : Scalar → Option Scalar
  | .boolean b => some (.boolean b)
  | .text s =>
    if Text.equalIgnoringCase s "true" then some (.boolean true)
    else if Text.equalIgnoringCase s "false" then some (.boolean false)
    else none
  | _ => none

/-- The hexadecimal text of an integer. -/
def hexText (i : Int) : Scalar := .text (String.ofList ('1' :: '6' :: '#' :: Hexadecimal.ofInt i))

/-- A scalar as a hexadecimal text: of a number the integer part, held in 64 bits; a text is
taken as it is. -/
def toHex? : Scalar → Option Scalar
  | .number (.finite x) => some (hexText x.clampedPart)
  | .integer i => some (hexText i)
  | .text s => some (.text s)
  | _ => none

end Scalar

/-- The characters behind the mark of a hexadecimal literal; all of them where it is missing. -/
def hexDigits (s : String) : String :=
  match Text.dropLead? ['1', '6', '#'] s.toList with
  | some rest => String.ofList rest
  | none => s

namespace DatePart

/-- The part of a date, as a whole number.  Sunday is day one of the week. -/
def ofDate : DatePart → Date → Int
  | .dayOfWeek, d => d.weekday
  | .dayOfMonth, d => d.day
  | .month, d => d.month
  | .year, d => d.year

end DatePart

namespace Operand

/-- The timestamp that an operand denotes. -/
def dateTime? : Operand → Option Timestamp
  | .dateTime t => some t
  | .text s => Timestamp.read? s.toList
  | .cast .dateTime o => dateTime? o
  | _ => none

/-- The literal of an operand. -/
def literal? : Operand → Option Scalar
  | .field _ => none
  | .attribute _ => none
  | .text s => some (.text s)
  | .number x => some (.number (.finite x))
  | .boolean b => some (.boolean b)
  | .hex s => some (.text (hexDigits s))
  | .dateTime t => some (.text (String.ofList t.writeMillis))
  | .time s => some (.text s)
  | .datePart p o => o.dateTime?.map fun t => .integer (p.ofDate t.date)
  | .cast .text o => (literal? o).map fun v => .text v.display
  | .cast .number o => (literal? o).bind Scalar.toNumber?
  | .cast .boolean o => (literal? o).bind Scalar.toBoolean?
  | .cast .hex o => (literal? o).bind Scalar.toHex?
  | .cast .dateTime o =>
    match o.dateTime? with
    | some t => some (.text (String.ofList t.writeMillis))
    | none => (literal? o).map fun v => .text v.display
  | .cast .time o => (literal? o).map fun v => .text v.display

/-- The index name of the field that an operand names. -/
def indexName? : Operand → Option String
  | .field path => Field.indexName? path
  | .cast _ o => indexName? o
  | _ => none

/-- The outermost cast of an operand. -/
def castType? : Operand → Option CastType
  | .cast c _ => some c
  | _ => none

end Operand

namespace TextOperand

/-- The index name of the field that an operand names. -/
def indexName? : TextOperand → Option String
  | .field path => Field.indexName? path
  | .cast o => o.indexName?
  | _ => none

/-- The text of an operand. -/
def literal? : TextOperand → Option String
  | .text s => some s
  | .cast o => o.literal?.map Scalar.display
  | _ => none

end TextOperand

namespace TextTest

/-- The test on two texts.  No text matches a pattern here: patterns are left to the index. -/
def holds (op : TextTest) (a b : String) : Bool :=
  match op with
  | .contains => Text.holds b.toList a.toList
  | .startsWith => Text.beginsWith b.toList a.toList
  | .endsWith => Text.finishesWith b.toList a.toList
  | .regex => false

/-- The test on operands: two of them, both literals. -/
def holdsOn (op : TextTest) (operands : List TextOperand) : Bool :=
  match pair? operands with
  | none => false
  | some (a, b) =>
    match a.literal?, b.literal? with
    | some s, some t => op.holds s t
    | _, _ => false

end TextTest

end AssetAccess
