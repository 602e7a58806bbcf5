import AssetAccess.Search.Compile
set_option autoImplicit false

/-!
# Search requests

A request asks an index for one page of the documents that a query finds, in an order
that is the same from page to page.
-/

namespace AssetAccess

/-- A search request. -/
structure SearchRequest where
  index : String
  clause : Clause
  /-- how many documents to skip -/
  start : Nat
  /-- how many documents to return -/
  size : Nat
  /-- the fields to return, where not all of them are -/
  fields : Option (List String)

namespace SearchRequest

/-- The number of documents on a page where nothing else is said. -/
def defaultPageSize : Nat := 100

/-- The request for one page of a query.  A limit of zero is none. -/
def ofQuery (index : String) (pageSize : Nat) (q : Query) (start : Nat) (limit : Option Nat) :
    SearchRequest where
  index := index
  clause := q.compile
  start := start
  size :=
    match limit with
    | some n => if 0 < n then n else pageSize
    | none => pageSize
  fields := if q.select = some "id" then some ["id"] else none

/-- The body of the request. -/
def body (r : SearchRequest) : Json :=
  .object
    ([("query", r.clause.toJson), ("from", .ofNat r.start), ("size", .ofNat r.size)] ++
      (match r.fields with
        | some fields => [("_source", Json.array (fields.map Json.string))]
        | none => []) ++
      [("sort",
        .array [Json.keyed "id.keyword" (Json.keyed "order" (.string "asc"))])])

end SearchRequest

namespace Query

/-- The type of the items that a query returns: identifiers under a projection, else the
items of the model. -/
def resultType (q : Query) (model : String) : String :=
  match q.select with
  | some s => if s.isEmpty then model else "Identifier"
  | none => model

end Query

end AssetAccess
