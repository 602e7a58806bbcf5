import AssetAccess.Text.Pieces
set_option autoImplicit false

/-!
# Model fields

A path such as `$aas#idShort` addresses a field of the model.  Behind the prefix of
the model part stands the name of the field; the prefix for submodel elements may
carry a qualifier before its `#`.  The index knows the field by the name without
list markers, and texts that are matched exactly under a keyword sub-field.
-/

namespace AssetAccess.Field

open Text

/-- The prefixes of the model parts that take no qualifier. -/
def plainLeads : List (List Char) :=
  ["$aas#".toList, "$sm#".toList, "$cd#".toList, "$aasdesc#".toList, "$smdesc#".toList]

/-- The prefix of submodel elements, before its qualifier. -/
def elementLead : List Char := "$sme".toList

/-- The suffix of the sub-field for exact matches. -/
def keywordSuffix : String := ".keyword"

/-- A field whose name holds one of these is matched under its keyword sub-field. -/
def keywordParts : List (List Char) :=
  ["name".toList, "value".toList, "idShort".toList, "id".toList, "type".toList,
   "assetKind".toList, "assetType".toList, "globalAssetId".toList,
   "externalSubjectId".toList]

/-- The name behind the prefix of a model part. -/
def modelName? (path : List Char) : Option (List Char) :=
  match dropLead? elementLead path with
  | some rest => afterFirst? '#' rest
  | none => plainLeads.findSome? fun lead => dropLead? lead path

/-- The path addresses a field of the model. -/
def isModelPath (path : String) : Bool := (modelName? path.toList).isSome

/-- The name without its list markers, of which those that only then come to stand
next to each other are kept. -/
def dropMarkers : List Char → List Char
  | '[' :: ']' :: r => dropMarkers r
  | c :: r => c :: dropMarkers r
  | [] => []

/-- The name is matched under its keyword sub-field. -/
def isKeyword (name : List Char) : Bool := keywordParts.any fun part => holds part name

/-- The name under which the index knows the field of a path. -/
def indexName? (path : String) : Option String :=
  match modelName? path.toList with
  | none => none
  | some rest =>
    let name := dropMarkers rest
    if name.isEmpty then none
    else if isKeyword name then some (String.ofList name ++ keywordSuffix)
    else some (String.ofList name)

/-- A path with an index name addresses the model. -/
theorem isModelPath_of_indexName? {path name : String} (h : indexName? path = some name) :
    isModelPath path = true := by
  unfold indexName? at h
  unfold isModelPath
  split at h
  · cases h
  · rename_i rest hr; simp [hr]

/-- The name with the keyword suffix, which is added where it is not there already. -/
def keywordName (name : String) : String :=
  if finishesWith keywordSuffix.toList name.toList then name else name ++ keywordSuffix

end AssetAccess.Field
