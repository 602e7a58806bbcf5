import AssetAccess.Search.Clause
set_option autoImplicit false

/-!
# Scripts

Two fields of one document are compared by a script, which quotes their names.  A
script comes only behind the tests that both fields are there, and a name that could
end its quotes is never put into one: such a comparison has no script.
-/

namespace AssetAccess.Script

/-- The name can stand between single quotes. -/
def isQuotable (name : String) : Bool := !name.toList.any fun c => c == '\'' || c == '\\'

/-- The value of a field. -/
def fieldValue (name : String) : String := "doc['" ++ name ++ "'].value"

/-- The value of a field under a cast. -/
def castValue (name : String) : Option CastType → String
  | none => fieldValue name
  | some .text => fieldValue name ++ ".toString()"
  | some .dateTime => fieldValue name ++ ".toString()"
  | some .time => fieldValue name ++ ".toString()"
  | some .number => "Double.parseDouble(" ++ fieldValue name ++ ".toString())"
  | some .boolean => "Boolean.parseBoolean(" ++ fieldValue name ++ ".toString())"
  | some .hex => "Integer.parseInt(" ++ fieldValue name ++ ".toString().substring(3), 16)"

/-- The operator of a comparison. -/
def operator : Comparison → String
  | .eq => "=="
  | .ne => "!="
  | .gt => ">"
  | .ge => ">="
  | .lt => "<"
  | .le => "<="

/-- The method of a text test; patterns have none. -/
def method? : TextTest → Option String
  | .contains => some "contains"
  | .startsWith => some "startsWith"
  | .endsWith => some "endsWith"
  | .regex => none

/-- The script behind the tests that both fields are there; nothing where a name cannot be
quoted. -/
def guarded? (left right source : String) : Option Clause :=
  if isQuotable left && isQuotable right then
    some (Clause.allOf [.present left, .present right, .script source])
  else none

/-- A comparison of two fields under casts. -/
def comparison? (op : Comparison) (left : String) (leftCast : Option CastType)
    (right : String) (rightCast : Option CastType) : Option Clause :=
  let l := Field.keywordName left
  let r := Field.keywordName right
  guarded? l r (castValue l leftCast ++ " " ++ operator op ++ " " ++ castValue r rightCast)

/-- A text test of two fields. -/
def textTest? (op : TextTest) (left right : String) : Option Clause :=
  match method? op with
  | none => none
  | some method =>
    let l := Field.keywordName left
    let r := Field.keywordName right
    guarded? l r (fieldValue l ++ "." ++ method ++ "(" ++ fieldValue r ++ ")")

end AssetAccess.Script
