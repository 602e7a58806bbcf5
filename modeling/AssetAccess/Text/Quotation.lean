import AssetAccess.Number.Hexadecimal
import AssetAccess.Text.Unprintable
set_option autoImplicit false

/-!
# Quotations

A text as a message quotes it: in double quotes, on one line, with whatever would not
be seen written as an escape.
-/

namespace AssetAccess.Text

/-- The escape of a character by its code point, in lower-case hexadecimal digits. -/
def codeEscape (c : Char) : List Char :=
  '\\' :: 'u' :: '{' :: (Hexadecimal.digits c.toNat).map Char.toLower ++ ['}']

/-- A character inside a quotation. -/
def quotedChar (c : Char) : List Char :=
  if c = '"' then ['\\', '"']
  else if c = '\\' then ['\\', '\\']
  else if c = '\n' then ['\\', 'n']
  else if c = '\r' then ['\\', 'r']
  else if c = '\t' then ['\\', 't']
  else if c.toNat = 0 then ['\\', '0']
  else if isUnprintable c then codeEscape c
  else [c]

/-- A text in quotes. -/
def quotation (s : String) : String :=
  String.ofList ('"' :: s.toList.flatMap quotedChar ++ ['"'])

end AssetAccess.Text
