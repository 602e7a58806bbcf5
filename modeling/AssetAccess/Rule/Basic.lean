import AssetAccess.Formula.Basic
import AssetAccess.Text.Pieces
set_option autoImplicit false

/-!
# Access rules

A rule allows or denies some rights on some targets to whoever its formula holds for.
The rights of a rule are a set, kept in one fixed order without repetitions, so that
equal sets are equal values.
-/

namespace AssetAccess

/-- A kind of action. -/
inductive Right where
  | create
  | read
  | update
  | delete
  | execute
  | view
  | all
  | tree
  deriving DecidableEq

namespace Right

/-- All rights, in their order. -/
def every : List Right := [.create, .read, .update, .delete, .execute, .view, .all, .tree]

/-- The name of a right. -/
def name : Right → String
  | .create => "CREATE"
  | .read => "READ"
  | .update => "UPDATE"
  | .delete => "DELETE"
  | .execute => "EXECUTE"
  | .view => "VIEW"
  | .all => "ALL"
  | .tree => "TREE"

/-- The right of a name, written in upper case. -/
def ofName? (s : String) : Option Right := every.find? fun r => r.name == s

/-- The right of a name, written in any case. -/
def ofWord? (s : String) : Option Right := every.find? fun r => Text.equalIgnoringCase r.name s

/-- What is said of a word that names no right. -/
def unknownWord : String := "Matching variant not found"

/-- The right of a word, or what is said of the word where it names none. -/
def ofText (s : String) : Except String Right :=
  match ofWord? s with
  | some r => .ok r
  | none => .error unknownWord

theorem ofName?_name (r : Right) : ofName? r.name = some r := by cases r <;> rfl

end Right

/-- A set of rights. -/
structure Rights where
  members : List Right
  ordered : members = Right.every.filter fun r => decide (r ∈ members)
  deriving DecidableEq

namespace Rights

/-- The set of the rights in a list. -/
def ofList (rs : List Right) : Rights where
  members := Right.every.filter fun r => decide (r ∈ rs)
  ordered := by
    apply List.filter_congr
    intro r hr
    simp [List.mem_filter, hr]

instance : Inhabited Rights := ⟨ofList []⟩

/-- The set holds a right. -/
def grants (s : Rights) (r : Right) : Bool := decide (r ∈ s.members)

/-- A set is that of its own members. -/
theorem ofList_members (s : Rights) : ofList s.members = s := by
  obtain ⟨m, h⟩ := s
  simp only [ofList, mk.injEq]
  exact h.symm

end Rights

/-- What a rule does to those it applies to. -/
inductive Access where
  | allow
  | deny
  deriving DecidableEq

/-- What a rule applies to, or what a request is about. -/
inductive Target where
  /-- a route of the service -/
  | route (path : String)
  /-- an identifiable by its id, or all of them -/
  | identifiable (id : String)
  | referable (id : String)
  | fragment (id : String)
  | descriptor (id : String)
  deriving DecidableEq

namespace Target

/-- The id that stands for every identifiable. -/
def anyIdentifiable : String := "(AAS)*"

end Target

/-- The access control list of a rule. -/
structure Acl where
  access : Access
  rights : Rights
  /-- the attributes that the rule declares -/
  attributes : List Attribute
  deriving DecidableEq

/-- An access rule. -/
structure Rule where
  acl : Acl
  targets : List Target
  formula : Formula

end AssetAccess
