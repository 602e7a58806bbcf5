import AssetAccess.Document.Resolve
import AssetAccess.Document.Wire
import AssetAccess.File
import AssetAccess.Text.Quotation
set_option autoImplicit false

/-!
# Loading rules

From the text of a rule document to its rules.  Loading yields all rules of the document
or, with the reason, none of them.
-/

namespace AssetAccess.Document

/-- Why no rules were loaded. -/
inductive LoadError where
  /-- the file at a path has no text -/
  | unread (path : String) (failure : File.Failure)
  /-- the text is no rule document -/
  | malformed
  /-- the document does not resolve -/
  | faulty (errors : List Error)

/-- The wording of an error. -/
def LoadError.message : LoadError → String
  | .unread path failure =>
    "rule document " ++ Text.quotation path ++ " failed to load: " ++ failure.message
  | .malformed => "not a rule document"
  | .faulty errors =>
    "rule document has " ++ String.ofList (Text.decimal errors.length) ++ " error(s)"

/-- The rules of a text. -/
def rulesOf (text : String) : Except LoadError (List Rule) :=
  match parse? text with
  | none => .error .malformed
  | some d =>
    match d.resolve with
    | .ok rules => .ok rules
    | .error errors => .error (.faulty errors)

/-- The rules of the file at a path. -/
def load (path : String) : File.Content → Except LoadError (List Rule)
  | .ok text => rulesOf text
  | .error failure => .error (.unread path failure)

end AssetAccess.Document
