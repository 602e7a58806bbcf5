import AssetAccess.CommandLine.Run
import Std.Time.Format
set_option autoImplicit false

/-!
# The program

Access decisions and search requests from the command line.  Here the environment, the
clock and the files are read; everything else is done by `CommandLine.run`.
-/

namespace AssetAccess.Main

/-- Why a file could not be read, from what the system says about it. -/
def failureOf : IO.Error → File.Failure
  | .noFileOrDirectory _ _ _ => .notFound
  | .permissionDenied _ _ _ => .notPermitted
  | .inappropriateType _ code details => ofType code details
  | .invalidArgument _ code details => ofArgument code details
  | e => .other (toString e)
where
  /-- The two faults of a wrong type; the system gives their numbers with either sign. -/
  ofType (code : UInt32) (details : String) : File.Failure :=
    if code = 20 ∨ code = 0 - 20 then .notDirectory
    else if code = 21 ∨ code = 0 - 21 then .isDirectory
    else .other details
  /-- The fault of a wrong argument that a path can have, apart from a zero byte in it. -/
  ofArgument (code : UInt32) (details : String) : File.Failure :=
    if code = 36 ∨ code = 0 - 36 then .nameTooLong else .other details

/-- The text of a file. -/
def readText (path : String) : IO File.Content := do
  if path.contains (Char.ofNat 0) then
    return .error .nameWithZero
  try
    let bytes ← IO.FS.readBinFile path
    match String.fromUTF8? bytes with
    | some text => pure (.ok text)
    | none => pure (.error .notText)
  catch e => pure (.error (failureOf e))

/-- The bytes between zero bytes. -/
def splitAtZeros (bytes : List UInt8) : List (List UInt8) :=
  bytes.foldr
    (fun b parts =>
      if b = 0 then [] :: parts
      else
        match parts with
        | [] => [[b]]
        | p :: ps => (b :: p) :: ps)
    [[]]

/-- A variable of the environment, from its definition. -/
def variableOf? (definition : List UInt8) : Option (String × String) := do
  let text ← String.fromUTF8? (ByteArray.mk definition.toArray)
  let (name, value) := CommandLine.splitJoined text.toList
  let value ← value
  some (String.ofList name, String.ofList value)

/-- The variables of the environment. -/
def readVariables : IO (List (String × String)) := do
  let bytes ← IO.FS.readBinFile "/proc/self/environ"
  pure ((splitAtZeros bytes.toList).filterMap variableOf?)

/-- The time of day so many seconds after some midnight, to the minute. -/
def timeOfSeconds (seconds : Int) : TimeOfDay :=
  let minute := (seconds / 60 % 1440).toNat
  ⟨minute / 60, minute % 60, 0, by omega⟩

/-- The current time.  Where the local offset is not known, local time is UTC. -/
def readClock : IO Clock := do
  let now ← Std.Time.Timestamp.now
  let seconds := now.toSecondsSinceUnixEpoch.val
  let offset : Int ←
    try
      let rules ← Std.Time.Database.defaultGetLocalZoneRules
      pure (rules.timezoneAt now).offset.second.val
    catch _ => pure 0
  pure ⟨timeOfSeconds (seconds + offset), timeOfSeconds seconds⟩

end AssetAccess.Main

/-- Prints what was asked for, or the reason why there is nothing to print. -/
def main (arguments : List String) : IO UInt32 := do
  let environment ← AssetAccess.Main.readVariables
  let clock ← AssetAccess.Main.readClock
  match ← AssetAccess.CommandLine.run AssetAccess.Main.readText environment arguments clock with
  | .ok text =>
    IO.println text
    pure 0
  | .error failure =>
    IO.eprintln ("Error: " ++ failure.message)
    pure failure.status.toUInt32
