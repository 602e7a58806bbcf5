import AssetAccess.Decision.Decide
import AssetAccess.Document.Load
import AssetAccess.Settings.Basic
set_option autoImplicit false

/-!
# The service

A service decides requests under its active rules and answers searches as it was set
up to.  The active rules are replaced as a whole by those of a document that loads; one
that does not load leaves everything as it was.

A run is a list of steps, each with its answer.
-/

namespace AssetAccess

/-- A service at work. -/
structure Service where
  settings : Settings
  /-- the active rules -/
  rules : List Rule

namespace Service

/-- The service with the rules of the document that its settings name. -/
def start (settings : Settings) (content : File.Content) : Except Document.LoadError Service :=
  match Document.load settings.rulesPath content with
  | .ok rules => .ok ⟨settings, rules⟩
  | .error e => .error e

/-- What a step asks for. -/
inductive Step where
  /-- take the rules of the document at a path -/
  | reload (path : String) (content : File.Content)
  /-- decide a request of a subject at a time -/
  | decide (request : Request) (subject : Option Claims) (now : Timestamp)
  /-- find one page of the items of a query -/
  | search (query : Query) (start : Nat) (limit : Option Nat)

/-- What comes of a step. -/
inductive Answer where
  /-- the rules were replaced, or why they were not -/
  | reloaded (failure : Option Document.LoadError)
  | decided (decision : Except Request.Refusal Bool)
  /-- the request to the index, and the type of the items it finds -/
  | found (request : SearchRequest) (resultType : String)

/-- The service with the rules of the document at a path. -/
def reload (s : Service) (path : String) (content : File.Content) : Service × Answer :=
  match Document.load path content with
  | .ok rules => (⟨s.settings, rules⟩, .reloaded none)
  | .error e => (s, .reloaded (some e))

/-- The request to the index for one page of a query. -/
def searchRequest (s : Service) (q : Query) (start : Nat) (limit : Option Nat) : SearchRequest :=
  SearchRequest.ofQuery s.settings.searchIndex s.settings.pageSize q start limit

/-- One step. -/
def step (s : Service) : Step → Service × Answer
  | .reload path content => s.reload path content
  | .decide request subject now => (s, .decided (request.decideAt s.rules subject now))
  | .search query start limit =>
    (s, .found (s.searchRequest query start limit) (query.resultType s.settings.modelName))

/-- The service after some steps, and the answers to them. -/
def run (s : Service) : List Step → Service × List Answer
  | [] => (s, [])
  | x :: xs =>
    let (s, answer) := s.step x
    let (s, answers) := run s xs
    (s, answer :: answers)

end Service

end AssetAccess
