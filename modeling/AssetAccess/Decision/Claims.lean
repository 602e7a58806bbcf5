import AssetAccess.Json.Shape
import AssetAccess.Text.Pieces
set_option autoImplicit false

/-!
# Claims of a subject

The claims are an object of any shape.  A rule names a claim by its dotted path: every
segment but the last selects an object, the last a text or a list of texts.
-/

namespace AssetAccess

/-- The claims of a subject. -/
abbrev Claims := List (String × Json)

/-- The value of a claim. -/
inductive ClaimValue where
  | text (s : String)
  | list (items : List String)
  deriving DecidableEq

namespace ClaimValue

/-- The claim value of a data tree: a text, or a list of nothing but texts. -/
def ofJson? : Json → Option ClaimValue
  | .string s => some (.text s)
  | .array items => (items.mapM Json.string?).map .list
  | _ => none

end ClaimValue

namespace Claims

/-- The claims of a data tree. -/
def decode? (v : Json) : Option Claims := if v.isReadable then v.members? else none

/-- The object that a segment selects. -/
def descend? (c : Claims) (segment : List Char) : Option Claims :=
  (Table.last? (String.ofList segment) c).bind Json.members?

/-- The claim of a path. -/
def lookup? (c : Claims) (path : String) : Option ClaimValue :=
  let segments := Text.segments '.' path.toList
  match segments.getLast? with
  | none => none
  | some leaf =>
    match segments.dropLast.foldlM descend? c with
    | none => none
    | some inner => (Table.last? (String.ofList leaf) inner).bind ClaimValue.ofJson?

end Claims

end AssetAccess
