import AssetAccess.Formula.Literal
set_option autoImplicit false

/-!
# Clauses of the index

What the index is asked: tests of single fields, a script over documents, and the
combination of clauses by which all, some or none of them have to match.  `toJson` is
the form in which the index takes a clause; lists without a clause are left out of it.
-/

namespace AssetAccess

/-- An end of a range. -/
inductive Bound where
  | gt
  | gte
  | lt
  | lte
  deriving DecidableEq

namespace Bound

/-- The key of a bound. -/
def key : Bound → String
  | .gt => "gt"
  | .gte => "gte"
  | .lt => "lt"
  | .lte => "lte"

end Bound

/-- A clause. -/
inductive Clause where
  | matchAll
  | matchNone
  /-- the field has the value -/
  | term (field : String) (value : Scalar)
  /-- the field lies beyond the bound -/
  | range (field : String) (bound : Bound) (value : Scalar)
  /-- the field matches a wildcard pattern -/
  | wildcard (field : String) (pattern : String)
  /-- the field matches a regular expression -/
  | regexp (field : String) (pattern : String)
  /-- the document has the field -/
  | present (field : String)
  /-- the script is true of the document -/
  | script (source : String)
  /-- all of `must` match, none of `mustNot`, and as many of `should` as are asked for -/
  | combined (must should mustNot : List Clause) (minimumShouldMatch : Option String)

namespace Clause

instance : Inhabited Clause := ⟨.matchAll⟩

/-- All of the clauses match. -/
def allOf (clauses : List Clause) : Clause := .combined clauses [] [] none

/-- At least one of the clauses matches. -/
def anyOf (clauses : List Clause) : Clause := .combined [] clauses [] (some "1")

/-- The clause does not match. -/
def negated (clause : Clause) : Clause := .combined [] [] [clause] none

/-- A list of clauses under its key; nothing for an empty list. -/
def listMember (key : String) : List Json → List (String × Json)
  | [] => []
  | v :: vs => [(key, .array (v :: vs))]

mutual

/-- The clause in the form the index takes. -/
def toJson : Clause → Json
  | .matchAll => Json.keyed "match_all" (.object [])
  | .matchNone => Json.keyed "match_none" (.object [])
  | .term field value =>
    Json.keyed "term" (Json.keyed field (Json.keyed "value" value.toJson))
  | .range field bound value =>
    Json.keyed "range" (Json.keyed field (Json.keyed bound.key value.toJson))
  | .wildcard field pattern =>
    Json.keyed "wildcard" (Json.keyed field (Json.keyed "value" (.string pattern)))
  | .regexp field pattern =>
    Json.keyed "regexp" (Json.keyed field (Json.keyed "value" (.string pattern)))
  | .present field => Json.keyed "exists" (Json.keyed "field" (.string field))
  | .script source =>
    Json.keyed "script"
      (Json.keyed "script" (.object [("source", .string source), ("lang", .string "painless")]))
  | .combined must should mustNot minimum =>
    Json.keyed "bool"
      (.object
        (listMember "must" (toJsonAll must) ++ listMember "should" (toJsonAll should) ++
          listMember "must_not" (toJsonAll mustNot) ++
          match minimum with
          | some n => [("minimum_should_match", .string n)]
          | none => []))

/-- The clauses of a list in the form the index takes. -/
def toJsonAll : List Clause → List Json
  | [] => []
  | c :: cs => toJson c :: toJsonAll cs

end

theorem toJsonAll_eq_map (cs : List Clause) : toJsonAll cs = cs.map toJson := by
  induction cs with
  | nil => rfl
  | cons c cs ih => rw [toJsonAll, List.map_cons, ih]

end Clause

end AssetAccess
