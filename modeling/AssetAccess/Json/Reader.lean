import AssetAccess.Json.Token
set_option autoImplicit false

/-!
# Reading a data text

The tokens are put together with a stack of the containers that are still open, so
the depth of a text costs no more than its length.  A container inside 127 others
is nested too deep to be read: its text is still checked, its place taken by a leaf
without a value.
-/

namespace AssetAccess.Json

/-- A container part way through, its content in reverse. -/
inductive Frame where
  | array (sound : Bool) (items : List Json)
  /-- an object; `key` is the key whose value comes next -/
  | object (sound : Bool) (members : List (String × Json)) (key : String)

/-- What may come next. -/
inductive Expected where
  | value
  | valueOrEnd
  | key
  | keyOrEnd
  | colon
  | commaOrEnd
  | nothing
  deriving DecidableEq

/-- The reader: the open containers, innermost first, what may come next, and the value
of the whole text once it is complete. -/
structure Reader where
  frames : List Frame
  expected : Expected
  result : Json

/-- How many containers may be nested in one another. -/
def maxDepth : Nat := 127

namespace Reader

/-- A value is complete: it goes into the innermost open container. -/
def put (r : Reader) (v : Json) : Reader :=
  match r.frames with
  | [] => ⟨[], .nothing, v⟩
  | .array sound items :: fs => ⟨.array sound (v :: items) :: fs, .commaOrEnd, r.result⟩
  | .object sound members key :: fs =>
    ⟨.object sound ((key, v) :: members) key :: fs, .commaOrEnd, r.result⟩

/-- Another container fits into the open ones. -/
def hasRoom (r : Reader) : Bool := decide (r.frames.length < maxDepth)

/-- A token where a value may stand. -/
def value? (r : Reader) : Token → Option Reader
  | .leaf v => some (r.put v)
  | .text (some s) => some (r.put (.string s))
  | .text none => some (r.put .unreadable)
  | .openArray => some ⟨.array r.hasRoom [] :: r.frames, .valueOrEnd, r.result⟩
  | .openObject => some ⟨.object r.hasRoom [] "" :: r.frames, .keyOrEnd, r.result⟩
  | _ => none

/-- A token where a key has to stand.  A broken key leaves the object without a value. -/
def key? (r : Reader) : Token → Option Reader
  | .text s =>
    match r.frames with
    | .object sound members _ :: fs =>
      some ⟨.object (sound && s.isSome) members (s.getD "") :: fs, .colon, r.result⟩
    | _ => none
  | _ => none

/-- The innermost container ends. -/
def close? (r : Reader) : Token → Option Reader
  | .closeArray =>
    match r.frames with
    | .array sound items :: fs =>
      some (put ⟨fs, r.expected, r.result⟩ (if sound then .array items.reverse else .unreadable))
    | _ => none
  | .closeObject =>
    match r.frames with
    | .object sound members _ :: fs =>
      some (put ⟨fs, r.expected, r.result⟩
        (if sound then .object members.reverse else .unreadable))
    | _ => none
  | _ => none

/-- A comma: what follows depends on the container. -/
def comma? (r : Reader) : Option Reader :=
  match r.frames with
  | .array _ _ :: _ => some ⟨r.frames, .value, r.result⟩
  | .object _ _ _ :: _ => some ⟨r.frames, .key, r.result⟩
  | [] => none

/-- The reader meets one token; nothing where no text continues so. -/
def step (r : Reader) (t : Token) : Option Reader :=
  match r.expected, t with
  | .value, t => r.value? t
  | .valueOrEnd, .closeArray => r.close? .closeArray
  | .valueOrEnd, t => r.value? t
  | .key, t => r.key? t
  | .keyOrEnd, .closeObject => r.close? .closeObject
  | .keyOrEnd, t => r.key? t
  | .colon, .colon => some ⟨r.frames, .value, r.result⟩
  | .colon, _ => none
  | .commaOrEnd, .comma => r.comma?
  | .commaOrEnd, t => r.close? t
  | .nothing, _ => none

end Reader

/-- The tree of a text; nothing where the text is malformed. -/
def parse? (text : String) : Option Json := do
  let tokens ← tokens? text.toList
  let r ← tokens.foldlM Reader.step ⟨[], .value, .null⟩
  if r.expected = .nothing then some r.result else none

end AssetAccess.Json
