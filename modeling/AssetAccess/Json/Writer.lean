import AssetAccess.Json.Basic
import AssetAccess.Number.Hexadecimal
import AssetAccess.Number.Notation
import AssetAccess.Text.Order
set_option autoImplicit false

/-!
# Writing a data tree

Two layouts: compact, on one line without spaces, and indented by two spaces a level.
Characters outside ASCII are written as they are; of the others the quote, the
backslash and the control characters are escaped.
-/

namespace AssetAccess.Json

/-- A character inside quotes. -/
def escaped (c : Char) : List Char :=
  if c = '"' then ['\\', '"']
  else if c = '\\' then ['\\', '\\']
  else if c = '\n' then ['\\', 'n']
  else if c = '\r' then ['\\', 'r']
  else if c = '\t' then ['\\', 't']
  else if c.toNat = 8 then ['\\', 'b']
  else if c.toNat = 12 then ['\\', 'f']
  else if c.toNat < 32 then
    ['\\', 'u', '0', '0', (Hexadecimal.digitChar (c.toNat / 16)).toLower,
      (Hexadecimal.digitChar (c.toNat % 16)).toLower]
  else [c]

/-- A text in quotes. -/
def quoted (s : String) : String := String.ofList ('"' :: s.toList.flatMap escaped ++ ['"'])

/-- A number. -/
def numberText : Numeral → String
  | .integer i => String.ofList (Text.decimalInt i)
  | .float x => String.ofList (Notation.data x)

mutual

/-- The tree on one line. -/
def compact : Json → String
  | .null => "null"
  | .bool true => "true"
  | .bool false => "false"
  | .number n => numberText n
  | .string s => quoted s
  | .array [] => "[]"
  | .array (v :: rest) => "[" ++ compact v ++ compactItems rest ++ "]"
  | .object [] => "\x7b\x7d"
  | .object ((k, v) :: rest) =>
    "\x7b" ++ quoted k ++ ":" ++ compact v ++ compactMembers rest ++ "\x7d"
  | .unreadable => "null"

/-- The items after the first. -/
def compactItems : List Json → String
  | [] => ""
  | v :: rest => "," ++ compact v ++ compactItems rest

/-- The members after the first. -/
def compactMembers : List (String × Json) → String
  | [] => ""
  | (k, v) :: rest => "," ++ quoted k ++ ":" ++ compact v ++ compactMembers rest

end

/-- The start of a line at a level of nesting. -/
def newline (level : Nat) : String :=
  String.ofList ('\n' :: List.replicate (2 * level) ' ')

mutual

/-- The tree over several lines, its first line standing at a level of nesting. -/
def indentedAt (level : Nat) : Json → String
  | .null => "null"
  | .bool true => "true"
  | .bool false => "false"
  | .number n => numberText n
  | .string s => quoted s
  | .array [] => "[]"
  | .array (v :: rest) =>
    "[" ++ newline (level + 1) ++ indentedAt (level + 1) v ++ indentedItems (level + 1) rest ++
      newline level ++ "]"
  | .object [] => "\x7b\x7d"
  | .object ((k, v) :: rest) =>
    "\x7b" ++ newline (level + 1) ++ quoted k ++ ": " ++ indentedAt (level + 1) v ++
      indentedMembers (level + 1) rest ++ newline level ++ "\x7d"
  | .unreadable => "null"

/-- The items after the first, a line each. -/
def indentedItems (level : Nat) : List Json → String
  | [] => ""
  | v :: rest => "," ++ newline level ++ indentedAt level v ++ indentedItems level rest

/-- The members after the first, a line each. -/
def indentedMembers (level : Nat) : List (String × Json) → String
  | [] => ""
  | (k, v) :: rest =>
    "," ++ newline level ++ quoted k ++ ": " ++ indentedAt level v ++ indentedMembers level rest

end

/-- The tree over several lines, two spaces a level. -/
def indented (v : Json) : String := indentedAt 0 v

/-- A member put at its place among members sorted by key. -/
def insertMember (key : String) (value : Json) : List (String × Json) → List (String × Json)
  | [] => [(key, value)]
  | (k, v) :: rest =>
    match Text.order key k with
    | .gt => (k, v) :: insertMember key value rest
    | _ => (key, value) :: (k, v) :: rest

mutual

/-- The tree with the members of every object in the order of their keys. -/
def sorted : Json → Json
  | .array items => .array (sortedItems items)
  | .object members => .object (sortedMembers members)
  | v => v

/-- The items with their objects sorted. -/
def sortedItems : List Json → List Json
  | [] => []
  | v :: rest => sorted v :: sortedItems rest

/-- The members sorted by key, and the objects in them. -/
def sortedMembers : List (String × Json) → List (String × Json)
  | [] => []
  | (k, v) :: rest => insertMember k (sorted v) (sortedMembers rest)

end

end AssetAccess.Json
