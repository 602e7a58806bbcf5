set_option autoImplicit false

/-!
# Files

What comes of an attempt to read a file: its text, or the reason why there is none.
-/

namespace AssetAccess.File

/-- Why a file has no text. -/
inductive Failure where
  /-- nothing is there -/
  | notFound
  /-- reading it is not permitted -/
  | notPermitted
  /-- something on the way to it is no directory -/
  | notDirectory
  /-- it is a directory itself -/
  | isDirectory
  /-- the path, or a name on it, is longer than the system allows -/
  | nameTooLong
  /-- the path holds a zero byte -/
  | nameWithZero
  /-- its bytes are not the encoding of a text -/
  | notText
  /-- any other fault of the system -/
  | other (message : String)
  deriving DecidableEq

/-- The wording of a failure. -/
def Failure.message : Failure → String
  | .notFound => "No such file or directory (os error 2)"
  | .notPermitted => "Permission denied (os error 13)"
  | .notDirectory => "Not a directory (os error 20)"
  | .isDirectory => "Is a directory (os error 21)"
  | .nameTooLong => "File name too long (os error 36)"
  | .nameWithZero => "file name contained an unexpected NUL byte"
  | .notText => "stream did not contain valid UTF-8"
  | .other message => message

/-- The text of a file, or why it has none. -/
abbrev Content := Except Failure String

end AssetAccess.File
