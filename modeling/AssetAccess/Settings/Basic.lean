import AssetAccess.Search.Request
import AssetAccess.Settings.Value
import AssetAccess.Table
import AssetAccess.Text.Pieces
set_option autoImplicit false

/-!
# Settings

What a service is set up with, and how the variables of the environment change it.  A
variable names a setting by the prefix of the service and the name of the setting, in
any case; of several variables for one setting the last counts.
-/

namespace AssetAccess

/-- The settings of a service. -/
structure Settings where
  /-- where the rule document is -/
  rulesPath : String
  /-- the index that searches are put to -/
  searchIndex : String
  /-- the number of documents on a page where a search does not say -/
  pageSize : Nat
  /-- the type of the items that a search finds -/
  modelName : String

namespace Settings

/-- The settings of a service where nothing is said. -/
def standard : Settings where
  rulesPath := "/etc/twinly/rules.json"
  searchIndex := "shells"
  pageSize := SearchRequest.defaultPageSize
  modelName := "AssetAdministrationShell"

/-- The beginning of the names of variables. -/
def lead : List Char := "TWINLY_".toList

/-- A name in lower case. -/
def lowered (cs : List Char) : List Char := cs.map Char.toLower

/-- The setting that a variable names, and its value.  A dotted name addresses a place inside
a setting, which then is a table. -/
def entry? (name value : String) : Option (String × SettingValue) :=
  match Text.dropLead? (lowered lead) (lowered (Text.trim name.toList)) with
  | none => none
  | some key =>
    let steps := Text.segments '.' (Text.trim key)
    if steps.any List.isEmpty then none
    else
      match steps with
      | [] => none
      | [key] => some (String.ofList key, .ofText value)
      | key :: inner =>
        some (String.ofList key,
          .table [(String.ofList (List.intercalate ['.'] inner), .ofText value)])

/-- A setting that is a text. -/
def text? (entries : List (String × SettingValue)) (key : String) (default : String) :
    Option String :=
  match Table.last? key entries with
  | none => some default
  | some (.text s) => some s
  | some _ => none

/-- A setting that is a count. -/
def count? (entries : List (String × SettingValue)) (key : String) (default : Nat) :
    Option Nat :=
  match Table.last? key entries with
  | none => some default
  | some (.whole i) => if 0 ≤ i then some i.toNat else none
  | some _ => none

/-- The settings in an environment; nothing where a value is of the wrong type. -/
def ofVariables? (environment : List (String × String)) : Option Settings := do
  let entries := environment.filterMap fun v => entry? v.1 v.2
  let rulesPath ← text? entries "rules_path" standard.rulesPath
  let searchIndex ← text? entries "search_index" standard.searchIndex
  let pageSize ← count? entries "default_page_size" standard.pageSize
  let modelName ← text? entries "model_name" standard.modelName
  some ⟨rulesPath, searchIndex, pageSize, modelName⟩

end Settings

end AssetAccess
