import AssetAccess.Json.Basic
import AssetAccess.Number.Hexadecimal
import AssetAccess.Number.Scaled
set_option autoImplicit false

/-!
# Tokens of a data text

The scanner walks over the characters once.  Between tokens it is in mode `between`;
a word is a longest run of characters that are no space, mark or quote and has to be
a literal name or a number of the strict grammar; a quoted text ends at its closing
quote.  Half of a surrogate pair makes a text `broken`: it is well formed but holds
no value.
-/

namespace AssetAccess.Json

/-- One token. -/
inductive Token where
  | openObject
  | closeObject
  | openArray
  | closeArray
  | colon
  | comma
  /-- a quoted text; nothing where it holds half a surrogate pair -/
  | text (s : Option String)
  /-- a literal name or a number -/
  | leaf (v : Json)

/-- Where the scanner is.  Characters already read are kept in reverse. -/
inductive Mode where
  /-- outside every token -/
  | between
  /-- inside a bare word -/
  | word (done : List Char)
  /-- inside quotes; `pending` is the first half of a surrogate pair just read -/
  | quoted (done : List Char) (sound : Bool) (pending : Option Nat)
  /-- behind a backslash -/
  | escape (done : List Char) (sound : Bool) (pending : Option Nat)
  /-- inside the four digits of a code unit -/
  | unit (done : List Char) (sound : Bool) (pending : Option Nat) (value count : Nat)

/-- The scanner: its mode and the tokens so far, in reverse. -/
structure Scanner where
  mode : Mode
  tokens : List Token

/-- The characters that may stand between tokens. -/
def isSpace (c : Char) : Bool := c == ' ' || c == '\t' || c == '\n' || c == '\r'

/-- The token of a character that is a token by itself. -/
def Token.ofMark? (c : Char) : Option Token :=
  if c = '{' then some .openObject
  else if c = '}' then some .closeObject
  else if c = '[' then some .openArray
  else if c = ']' then some .closeArray
  else if c = ':' then some .colon
  else if c = ',' then some .comma
  else none

/-- A whole number that fits a 64-bit word stays one; any other is a float, and one out of
its range has no value.  A minus sign before zero makes the negative zero. -/
def numberLeaf (negative : Bool) (p : Decimal.Parts) : Json :=
  let digits := p.value.digits
  let float : Json :=
    match Scaled.read negative p with
    | .finite x => .number (.float x)
    | .infinite _ => .unreadable
    | .notANumber => .unreadable
  if !p.isInteger then float
  else if negative then
    (if 0 < digits ∧ digits ≤ 9223372036854775808 then .number (.integer (-(digits : Int)))
     else float)
  else if digits < 18446744073709551616 then .number (.integer digits)
  else float

/-- The value of a bare word. -/
def wordLeaf? (cs : List Char) : Option Json :=
  if cs = ['n', 'u', 'l', 'l'] then some .null
  else if cs = ['t', 'r', 'u', 'e'] then some (.bool true)
  else if cs = ['f', 'a', 'l', 's', 'e'] then some (.bool false)
  else
    let (negative, rest) :=
      match cs with
      | '-' :: r => (true, r)
      | r => (false, r)
    match Decimal.parts? rest with
    | none => none
    | some p => if p.isStrict then some (numberLeaf negative p) else none

/-- The character that a one-letter escape stands for. -/
def unescape? (c : Char) : Option Char :=
  if c = '"' then some '"'
  else if c = '\\' then some '\\'
  else if c = '/' then some '/'
  else if c = 'b' then some (Char.ofNat 8)
  else if c = 'f' then some (Char.ofNat 12)
  else if c = 'n' then some '\n'
  else if c = 'r' then some '\r'
  else if c = 't' then some '\t'
  else none

namespace Scanner

/-- The scanner outside every token meets a character. -/
def start (tokens : List Token) (c : Char) : Scanner :=
  if isSpace c then ⟨.between, tokens⟩
  else
    match Token.ofMark? c with
    | some t => ⟨.between, t :: tokens⟩
    | none => if c = '"' then ⟨.quoted [] true none, tokens⟩ else ⟨.word [c], tokens⟩

/-- A word ends before this character. -/
def endsWord (c : Char) : Bool := isSpace c || (Token.ofMark? c).isSome || c == '"'

/-- A code unit is complete.  Two halves of a surrogate pair make one character. -/
def closeUnit (done : List Char) (sound : Bool) (pending : Option Nat) (unit : Nat) : Mode :=
  let high := decide (0xD800 ≤ unit) && decide (unit < 0xDC00)
  let low := decide (0xDC00 ≤ unit) && decide (unit < 0xE000)
  match pending with
  | some first =>
    if low then
      .quoted (Char.ofNat (0x10000 + (first - 0xD800) * 0x400 + (unit - 0xDC00)) :: done) sound none
    else if high then .quoted done false (some unit)
    else .quoted (Char.ofNat unit :: done) false none
  | none =>
    if high then .quoted done sound (some unit)
    else if low then .quoted done false none
    else .quoted (Char.ofNat unit :: done) sound none

/-- The scanner meets one character; nothing where no text continues so. -/
def step (s : Scanner) (c : Char) : Option Scanner :=
  match s.mode with
  | .between => some (start s.tokens c)
  | .word done =>
    if endsWord c then
      (wordLeaf? done.reverse).map fun v => start (.leaf v :: s.tokens) c
    else some ⟨.word (c :: done), s.tokens⟩
  | .quoted done sound pending =>
    if c = '\\' then some ⟨.escape done sound pending, s.tokens⟩
    else
      let sound := sound && pending.isNone
      if c = '"' then
        some ⟨.between,
          .text (if sound then some (String.ofList done.reverse) else none) :: s.tokens⟩
      else if c.toNat < 32 then none
      else some ⟨.quoted (c :: done) sound none, s.tokens⟩
  | .escape done sound pending =>
    if c = 'u' then some ⟨.unit done sound pending 0 0, s.tokens⟩
    else
      (unescape? c).map fun e => ⟨.quoted (e :: done) (sound && pending.isNone) none, s.tokens⟩
  | .unit done sound pending value count =>
    (Hexadecimal.digit? c).map fun d =>
      if count = 3 then ⟨closeUnit done sound pending (16 * value + d), s.tokens⟩
      else ⟨.unit done sound pending (16 * value + d) (count + 1), s.tokens⟩

/-- The tokens, in order, once the characters are used up. -/
def finish? (s : Scanner) : Option (List Token) :=
  match s.mode with
  | .between => some s.tokens.reverse
  | .word done => (wordLeaf? done.reverse).map fun v => (Token.leaf v :: s.tokens).reverse
  | _ => none

end Scanner

/-- The tokens of a text; nothing where some part of it is no token. -/
def tokens? (cs : List Char) : Option (List Token) :=
  (cs.foldlM Scanner.step ⟨.between, []⟩).bind Scanner.finish?

end AssetAccess.Json
