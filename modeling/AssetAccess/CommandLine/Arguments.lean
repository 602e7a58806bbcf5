import AssetAccess.Number.Word
import AssetAccess.Rule.Basic
import AssetAccess.Table
set_option autoImplicit false

/-!
# Arguments

The arguments of the program: a command, then its options.  Every option has a long name
and takes one value, which follows it or is joined to it by an equals sign.  A value that
begins with a hyphen has to be joined.

A request for help or for the version is answered as soon as it is met, provided that
nothing before it is wrong.
-/

namespace AssetAccess.CommandLine

/-- What the program is asked to do. -/
inductive Command where
  /-- decide whether a subject has a right on a target -/
  | decide (right : Right) (target : Target) (claims targetAttributes rules : Option String)
  /-- compile a query into a request to the index -/
  | compile (query : String) (index : Option String) (start : Nat) (size : Option Nat)
  /-- load a rule document -/
  | checkRules (rules : Option String)

/-- What the arguments ask for. -/
inductive Invocation where
  | run (command : Command)
  | help
  | version

/-- What is wrong with the arguments. -/
inductive Fault where
  | noCommand
  | unknownCommand (word : String)
  /-- a word where none is expected, or an option that the command does not have -/
  | unexpected (word : String)
  | noValue (option : String)
  | badValue (option : String)
  | repeated (option : String)
  /-- an option that the command needs is missing -/
  | missing (option : String)
  /-- two options exclude each other -/
  | conflict (option other : String)
  deriving DecidableEq

/-- The wording of a fault. -/
def Fault.message : Fault → String
  | .noCommand => "a command is needed"
  | .unknownCommand word => "unknown command " ++ word
  | .unexpected word => "unexpected argument " ++ word
  | .noValue option => "no value for --" ++ option
  | .badValue option => "invalid value for --" ++ option
  | .repeated option => "--" ++ option ++ " is given more than once"
  | .missing option => "--" ++ option ++ " is needed"
  | .conflict option other => "--" ++ option ++ " cannot be used with --" ++ other

/-! ## Words -/

/-- What a word is by its hyphens. -/
inductive Shape where
  /-- two hyphens and nothing else: no options follow -/
  | separator
  /-- a long option, and the value joined to it -/
  | long (name : String) (joined : Option String)
  /-- one hyphen and more -/
  | short (letters : List Char)
  | plain

/-- The text up to the first equals sign, and what follows the sign. -/
def splitJoined : List Char → List Char × Option (List Char)
  | [] => ([], none)
  | '=' :: cs => ([], some cs)
  | c :: cs =>
    let (name, joined) := splitJoined cs
    (c :: name, joined)

/-- What a word is. -/
def Shape.ofText (s : String) : Shape :=
  match s.toList with
  | ['-', '-'] => .separator
  | '-' :: '-' :: cs =>
    let (name, joined) := splitJoined cs
    .long (String.ofList name) (joined.map String.ofList)
  | '-' :: c :: cs => .short (c :: cs)
  | _ => .plain

/-- The word can be a value on its own. -/
def Shape.isValue : Shape → Bool
  | .plain => true
  | _ => false

/-! ## Options -/

/-- An option of a command: its name, and the values it takes. -/
structure Parameter where
  name : String
  accepts : String → Bool

/-- An option that takes any text. -/
def Parameter.text (name : String) : Parameter := ⟨name, fun _ => true⟩

/-- An option that takes the path of a file. -/
def Parameter.path (name : String) : Parameter := ⟨name, fun s => !s.isEmpty⟩

/-- The number in a value. -/
def count? (s : String) : Option Nat := Word.unsigned? s.toList

/-- An option that takes a number. -/
def Parameter.count (name : String) : Parameter := ⟨name, fun s => (count? s).isSome⟩

/-- An option that takes the name of a right. -/
def Parameter.right (name : String) : Parameter := ⟨name, fun s => (Right.ofText s).isOk⟩

/-- The options given, by their names. -/
abbrev Given := List (String × String)

/-- An option is given a value. -/
def Given.add (parameters : List Parameter) (given : Given) (name value : String) :
    Except Fault Given :=
  match parameters.find? fun p => p.name == name with
  | none => .error (.unexpected name)
  | some p =>
    if Table.hasKey name given then .error (.repeated name)
    else if p.accepts value then .ok ((name, value) :: given)
    else .error (.badValue name)

/-- The options in the words behind a command; nothing where they ask for help. -/
def Given.ofWords (parameters : List Parameter) (given : Given) :
    List String → Except Fault (Option Given)
  | [] => .ok (some given)
  | word :: words =>
    match Shape.ofText word with
    | .separator => if words.isEmpty then .ok (some given) else .error (.unexpected word)
    | .short letters => if letters.head? = some 'h' then .ok none else .error (.unexpected word)
    | .plain => .error (.unexpected word)
    | .long name (some value) =>
      match given.add parameters name value with
      | .error e => .error e
      | .ok given => ofWords parameters given words
    | .long name none =>
      if name = "help" then .ok none
      else
        match words with
        | [] => .error (.noValue name)
        | value :: words =>
          if (Shape.ofText value).isValue then
            match given.add parameters name value with
            | .error e => .error e
            | .ok given => ofWords parameters given words
          else .error (.noValue name)

/-- The value of an option. -/
def Given.value? (given : Given) (name : String) : Option String := Table.first? name given

/-- The value of an option that has to be there. -/
def Given.needed (given : Given) (name : String) : Except Fault String :=
  match given.value? name with
  | some value => .ok value
  | none => .error (.missing name)

/-! ## Commands -/

namespace Command

/-- The options of the decision. -/
def decideParameters : List Parameter :=
  [.right "right", .text "identifiable", .text "route", .path "claims",
   .path "object-attributes", .path "rules"]

/-- The target in the options: an identifiable or a route, not both. -/
def target (given : Given) : Except Fault Target :=
  match given.value? "identifiable", given.value? "route" with
  | some id, none => .ok (.identifiable id)
  | none, some path => .ok (.route path)
  | some _, some _ => .error (.conflict "identifiable" "route")
  | none, none => .error (.missing "identifiable")

/-- The decision that the options ask for. -/
def decideOf (given : Given) : Except Fault Command := do
  let word ← given.needed "right"
  let target ← target given
  match Right.ofText word with
  | .ok right =>
    .ok (.decide right target (given.value? "claims") (given.value? "object-attributes")
      (given.value? "rules"))
  | .error _ => .error (.badValue "right")

/-- The options of the compilation. -/
def compileParameters : List Parameter :=
  [.path "query", .text "index", .count "from", .count "size"]

/-- The compilation that the options ask for. -/
def compileOf (given : Given) : Except Fault Command := do
  let query ← given.needed "query"
  .ok (.compile query (given.value? "index") (((given.value? "from").bind count?).getD 0)
    ((given.value? "size").bind count?))

/-- The options of the check. -/
def checkParameters : List Parameter := [.path "rules"]

/-- The check that the options ask for. -/
def checkOf (given : Given) : Except Fault Command := .ok (.checkRules (given.value? "rules"))

/-- The names of the commands, each with its options and what is made of them. -/
def every : List (String × List Parameter × (Given → Except Fault Command)) :=
  [("decide", decideParameters, decideOf), ("compile", compileParameters, compileOf),
   ("check-rules", checkParameters, checkOf)]

end Command

namespace Invocation

/-- What the words ask for that follow the word for help. -/
def ofHelp (words : List String) : Except Fault Invocation :=
  match words with
  | [] => .ok .help
  | [word] =>
    if word = "help" ∨ Table.hasKey word Command.every then .ok .help
    else .error (.unknownCommand word)
  | _ :: word :: _ => .error (.unknownCommand word)

/-- What the words ask for that follow the name of a command. -/
def ofCommand (name : String) (words : List String) : Except Fault Invocation :=
  match Table.first? name Command.every with
  | none => .error (.unknownCommand name)
  | some (parameters, build) =>
    match Given.ofWords parameters [] words with
    | .error e => .error e
    | .ok none => .ok .help
    | .ok (some given) => (build given).map .run

/-- What the arguments ask for. -/
def ofArguments : List String → Except Fault Invocation
  | [] => .error .noCommand
  | word :: words =>
    match Shape.ofText word with
    | .separator =>
      match words with
      | [] => .error .noCommand
      | other :: _ => .error (.unexpected other)
    | .short letters =>
      if letters.head? = some 'h' then .ok .help
      else if letters.head? = some 'V' then .ok .version
      else .error (.unexpected word)
    | .long name joined =>
      if joined.isSome then .error (.unexpected word)
      else if name = "help" then .ok .help
      else if name = "version" then .ok .version
      else .error (.unexpected word)
    | .plain => if word = "help" then ofHelp words else ofCommand word words

end Invocation

end AssetAccess.CommandLine
