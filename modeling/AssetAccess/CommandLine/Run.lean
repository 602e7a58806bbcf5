import AssetAccess.CommandLine.Arguments
import AssetAccess.Json.Writer
import AssetAccess.Service
set_option autoImplicit false

/-!
# Running a command

What the program prints, and how it fails.  The settings are read first, then the
arguments, and then the files that the command names, in an order that decides which of
several failures is reported.  Reading a file is left to whoever runs the command.
-/

namespace AssetAccess.CommandLine

/-- The version that the program reports. -/
def version : String := "twinly 0.0.0"

/-- How the program is used. -/
def usage : String :=
  "Usage: twinly decide --right RIGHT (--identifiable ID | --route ROUTE) [--claims FILE]\n" ++
  "                     [--object-attributes FILE] [--rules FILE]\n" ++
  "       twinly compile --query FILE [--index INDEX] [--from COUNT] [--size COUNT]\n" ++
  "       twinly check-rules [--rules FILE]\n" ++
  "       twinly --version"

/-- Why a run of the program fails. -/
inductive Failure where
  /-- a setting has a value of the wrong type -/
  | settings
  | arguments (fault : Fault)
  | rules (error : Document.LoadError)
  /-- the file at a path has no text -/
  | unread (path : String) (failure : File.Failure)
  /-- the text of the file at a path is not what it has to be -/
  | malformed (path : String)
  | refused (refusal : Request.Refusal)

/-- The wording of a failure. -/
def Failure.message : Failure → String
  | .settings => "invalid settings"
  | .arguments fault => fault.message
  | .rules error => error.message
  | .unread path failure => Text.quotation path ++ ": " ++ failure.message
  | .malformed _ => "malformed data"
  | .refused refusal => refusal.message

/-- The exit status for a failure. -/
def Failure.status : Failure → Nat
  | .arguments _ => 2
  | _ => 1

/-- What a run of the program prints, or why it fails. -/
abbrev Result := Except Failure String

/-- The data in the file at a path. -/
def dataOf {α : Type} (path : String) (decode : Json → Option α) :
    File.Content → Except Failure α
  | .error failure => .error (.unread path failure)
  | .ok text =>
    match (Json.parse? text).bind decode with
    | some a => .ok a
    | none => .error (.malformed path)

section

variable {m : Type → Type} [Monad m] (read : String → m File.Content)

/-- The data in the file at a path, read when it is asked for. -/
def fetch {α : Type} (path : String) (decode : Json → Option α) : ExceptT Failure m α :=
  ExceptT.mk (dataOf path decode <$> read path)

/-- The data in the file that an option names, where it is given. -/
def fetchGiven {α : Type} (path : Option String) (decode : Json → Option α) :
    ExceptT Failure m (Option α) :=
  match path with
  | some path => some <$> fetch read path decode
  | none => pure none

/-- The rules of the document at a path. -/
def fetchRules (path : String) : ExceptT Failure m (List Rule) :=
  ExceptT.mk ((fun content => (Document.load path content).mapError .rules) <$> read path)

/-- The claims and the attributes of the target are read after the rules. -/
def runDecide (settings : Settings) (clock : Clock) (right : Right) (target : Target)
    (claims targetAttributes rules : Option String) : ExceptT Failure m String := do
  let rules ← fetchRules read (rules.getD settings.rulesPath)
  let subject ← fetchGiven read claims Claims.decode?
  let attributes ← fetchGiven read targetAttributes (Json.mapOf? Operand.decode?)
  match Request.decide ⟨right, target, attributes.getD []⟩ rules subject clock with
  | .ok true => pure "allow"
  | .ok false => pure "deny"
  | .error refusal => throw (.refused refusal)

/-- The answer to a search, as a data tree. -/
def foundJson (request : SearchRequest) (resultType : String) : Json :=
  .object
    [("index", .string request.index), ("result_type", .string resultType),
     ("body", request.body)]

/-- The request to the index is printed with its members sorted. -/
def runCompile (settings : Settings) (query : String) (index : Option String) (start : Nat)
    (size : Option Nat) : ExceptT Failure m String := do
  let service : Service :=
    ⟨⟨settings.rulesPath, index.getD settings.searchIndex, settings.pageSize,
      settings.modelName⟩, []⟩
  let query ← fetch read query Query.decode?
  pure (foundJson (service.searchRequest query start size)
    (query.resultType settings.modelName)).sorted.indented

/-- The number of rules is printed. -/
def runCheck (settings : Settings) (rules : Option String) : ExceptT Failure m String := do
  let path := rules.getD settings.rulesPath
  let rules ← fetchRules read path
  pure (String.ofList (Text.decimal rules.length) ++ " rule(s) resolved from " ++ path)

/-- A command, under given settings and at a given time. -/
def runCommand (settings : Settings) (clock : Clock) : Command → ExceptT Failure m String
  | .decide right target claims targetAttributes rules =>
    runDecide read settings clock right target claims targetAttributes rules
  | .compile query index start size => runCompile read settings query index start size
  | .checkRules rules => runCheck read settings rules

/-- A run of the program, from its environment, its arguments and the time. -/
def run (environment : List (String × String)) (arguments : List String) (clock : Clock) :
    m Result :=
  match Settings.ofVariables? environment with
  | none => pure (.error .settings)
  | some settings =>
    match Invocation.ofArguments arguments with
    | .error fault => pure (.error (.arguments fault))
    | .ok .help => pure (.ok usage)
    | .ok .version => pure (.ok version)
    | .ok (.run command) => (runCommand read settings clock command).run

end

end AssetAccess.CommandLine
