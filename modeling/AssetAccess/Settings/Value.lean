import AssetAccess.Number.Hexadecimal
import AssetAccess.Number.Word
import AssetAccess.Text.Blank
set_option autoImplicit false

/-!
# Values of settings

The text of a setting may be typed: a truth value, a number, a text in quotes, a list
in brackets or a table in braces.  A text that is nothing of the kind stands for
itself.

Separators and brackets end a bare word, so that `a,b` is no value but a plain text.
-/

namespace AssetAccess

/-- A value of a setting. -/
inductive SettingValue where
  | truth (b : Bool)
  | whole (i : Int)
  | fraction (x : Binary64)
  | text (s : String)
  | list (items : List SettingValue)
  | table (entries : List (String × SettingValue))

namespace SettingValue

/-- White space between the parts of a value. -/
def isGap (c : Char) : Bool := c == ' ' || c == '\t' || c == '\n' || c == '\r' || c.toNat == 12

/-- A text without the white space that it begins with. -/
def skipGap (cs : List Char) : List Char := cs.dropWhile isGap

/-! ## Bare words -/

/-- The characters that end a bare word. -/
def endsWord (c : Char) : Bool := c == ',' || c == '[' || c == ']' || c == '{' || c == '}'

/-- A whole number, if it is one. -/
def whole? (cs : List Char) : Option SettingValue :=
  match Word.unsigned? cs with
  | some n => some (.whole n)
  | none => (Word.negative? cs).map .whole

/-- A number with a point, if it is one. -/
def fraction? (cs : List Char) : Option SettingValue :=
  if cs.contains '.' then (Binary64.ofText? cs).map .fraction else none

/-- The value of a bare word. -/
def ofWord (cs : List Char) : SettingValue :=
  match fraction? cs with
  | some v => v
  | none => (whole? cs).getD (.text (String.ofList cs))

/-! ## Texts in quotes -/

/-- Where a text in quotes is being read. -/
inductive Place where
  /-- between escapes -/
  | plain
  /-- behind a backslash -/
  | escape
  /-- inside the digits of a code point, of which so many follow the next -/
  | code (more : Nat) (value : Nat)

/-- The character that a one-letter escape stands for. -/
def unescape? (c : Char) : Option Char :=
  if c = '"' then some '"'
  else if c = '\\' then some '\\'
  else if c = 'b' then some (Char.ofNat 8)
  else if c = 'f' then some (Char.ofNat 12)
  else if c = 'n' then some '\n'
  else if c = 'r' then some '\r'
  else if c = 't' then some '\t'
  else none

/-- The character of a code point. -/
def ofCode? (n : Nat) : Option Char := if n.isValidChar then some (Char.ofNat n) else none

/-- The characters that may stand in quotes as they are. -/
def isPlain (c : Char) : Bool := c == '\t' || (decide (32 ≤ c.toNat) && c.toNat != 127)

/-- The rest of a text in quotes, its characters so far in reverse, and what follows. -/
def readQuoted? (place : Place) (done : List Char) : List Char → Option (List Char × List Char)
  | [] => none
  | c :: cs =>
    match place with
    | .plain =>
      if c = '"' then some (done.reverse, cs)
      else if c = '\\' then readQuoted? .escape done cs
      else if isPlain c then readQuoted? .plain (c :: done) cs
      else none
    | .escape =>
      if c = 'u' then readQuoted? (.code 3 0) done cs
      else if c = 'U' then readQuoted? (.code 7 0) done cs
      else
        match unescape? c with
        | some e => readQuoted? .plain (e :: done) cs
        | none => none
    | .code more value =>
      match Hexadecimal.digit? c with
      | none => none
      | some d =>
        match more with
        | n + 1 => readQuoted? (.code n (16 * value + d)) done cs
        | 0 =>
          match ofCode? (16 * value + d) with
          | some e => readQuoted? .plain (e :: done) cs
          | none => none

/-! ## Values -/

/-- The characters of a bare key. -/
def isKeyChar (c : Char) : Bool := c.isAlphanum || c == '_' || c == '-'

/-- A key of a table, bare or in quotes, up to its equals sign. -/
def readKey? (cs : List Char) : Option (String × List Char) :=
  let key : Option (List Char × List Char) :=
    match skipGap cs with
    | '"' :: r => readQuoted? .plain [] r
    | r =>
      if (r.takeWhile isKeyChar).isEmpty then none
      else some (r.takeWhile isKeyChar, r.dropWhile isKeyChar)
  match key with
  | none => none
  | some (name, r) =>
    match skipGap r with
    | '=' :: r => some (String.ofList name, r)
    | _ => none

/-- A value without parts: a truth value, a text in quotes, a single character in quotes or
a bare word. -/
def readLeaf? (cs : List Char) : Option (SettingValue × List Char) :=
  match cs with
  | 't' :: 'r' :: 'u' :: 'e' :: r => some (.truth true, r)
  | 'f' :: 'a' :: 'l' :: 's' :: 'e' :: r => some (.truth false, r)
  | '"' :: r => (readQuoted? .plain [] r).map fun p => (.text (String.ofList p.1), p.2)
  | '\'' :: c :: '\'' :: r => some (.text (String.ofList [c]), r)
  | '\'' :: _ => none
  | r =>
    let word := r.takeWhile fun c => !endsWord c
    some (ofWord (Text.trim word), r.dropWhile fun c => !endsWord c)

mutual

/-- A value at the front of a text, with the white space around it, and what follows.  The
fuel bounds the nesting. -/
def readFront? (fuel : Nat) (cs : List Char) : Option (SettingValue × List Char) :=
  match fuel with
  | 0 => none
  | fuel + 1 =>
    let found : Option (SettingValue × List Char) :=
      match skipGap cs with
      | '[' :: r => (readItems? fuel [] r).map fun p => (.list p.1, p.2)
      | '{' :: r => (readEntries? fuel [] r).map fun p => (.table p.1, p.2)
      | r => readLeaf? r
    found.map fun p => (p.1, skipGap p.2)

/-- The rest of a list, its items so far in reverse.  A separator may stand before the end. -/
def readItems? (fuel : Nat) (done : List SettingValue) (cs : List Char) :
    Option (List SettingValue × List Char) :=
  match fuel with
  | 0 => none
  | fuel + 1 =>
    match cs with
    | ']' :: r => some (done.reverse, r)
    | cs =>
      match readFront? fuel cs with
      | some (v, ',' :: r) => readItems? fuel (v :: done) r
      | some (v, ']' :: r) => some ((v :: done).reverse, r)
      | _ => none

/-- The rest of a table, its entries so far in reverse. -/
def readEntries? (fuel : Nat) (done : List (String × SettingValue)) (cs : List Char) :
    Option (List (String × SettingValue) × List Char) :=
  match fuel with
  | 0 => none
  | fuel + 1 =>
    match cs with
    | '}' :: r => some (done.reverse, r)
    | cs =>
      match readKey? cs with
      | none => none
      | some (key, r) =>
        match readFront? fuel r with
        | some (v, ',' :: r) => readEntries? fuel ((key, v) :: done) r
        | some (v, '}' :: r) => some (((key, v) :: done).reverse, r)
        | _ => none

end

/-- The typed value of a text.  Every two levels of the reading use up a character, which
bounds the fuel. -/
def typed? (cs : List Char) : Option SettingValue :=
  match readFront? (2 * cs.length + 2) cs with
  | some (v, []) => some v
  | _ => none

/-- The value of a text: the typed one, or else the text itself. -/
def ofText (s : String) : SettingValue := (typed? s.toList).getD (.text s)

end SettingValue

end AssetAccess
