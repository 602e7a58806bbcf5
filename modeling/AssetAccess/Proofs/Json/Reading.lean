import AssetAccess.Json.Reader
set_option autoImplicit false

/-!
# Reading a tree back

A tree has one sequence of tokens (`tokens`), and a text spells the tree if these are its
tokens (`Spells`); the numbers in a tree count as values here, not as digits.  The reader puts
the tokens of a tree together again, down to the depth that it reads: a container below that
depth becomes a leaf without a value (`clip`), and a tree that is not nested so deep comes back
as it is (`Spells.parse?_eq_self`).
-/

namespace AssetAccess.Json

/-! ## Induction -/

/-- What holds of a tree whenever it holds of its parts holds of every tree. -/
@[elab_as_elim, induction_eliminator]
theorem induction {motive : Json → Prop}
    (null : motive .null) (bool : ∀ b, motive (.bool b)) (number : ∀ n, motive (.number n))
    (string : ∀ s, motive (.string s))
    (array : ∀ items, (∀ v ∈ items, motive v) → motive (.array items))
    (object : ∀ members, (∀ m ∈ members, motive m.2) → motive (.object members))
    (unreadable : motive .unreadable) : ∀ v, motive v
  | .null => null
  | .bool b => bool b
  | .number n => number n
  | .string s => string s
  | .array items => array items fun v _ =>
      induction null bool number string array object unreadable v
  | .object members => object members fun m hm =>
      have : sizeOf m.2 < sizeOf members := by
        have hmember := List.sizeOf_lt_of_mem hm
        obtain ⟨key, v⟩ := m
        rw [Prod.mk.sizeOf_spec] at hmember
        change sizeOf v < sizeOf members
        omega
      induction null bool number string array object unreadable m.2
  | .unreadable => unreadable

/-! ## Tokens -/

mutual

/-- The tokens of a tree. -/
def tokens : Json → List Token
  | .array [] => [.openArray, .closeArray]
  | .array (v :: rest) => .openArray :: (tokens v ++ laterItems rest)
  | .object [] => [.openObject, .closeObject]
  | .object ((key, v) :: rest) =>
    .openObject :: .text (some key) :: .colon :: (tokens v ++ laterMembers rest)
  | .string s => [.text (some s)]
  | v => [.leaf v]

/-- The tokens of the items after the first, up to the end of the array. -/
def laterItems : List Json → List Token
  | [] => [.closeArray]
  | v :: rest => .comma :: (tokens v ++ laterItems rest)

/-- The tokens of the members after the first, up to the end of the object. -/
def laterMembers : List (String × Json) → List Token
  | [] => [.closeObject]
  | (key, v) :: rest => .comma :: .text (some key) :: .colon :: (tokens v ++ laterMembers rest)

end

/-- The text spells the tree. -/
def Spells (text : String) (v : Json) : Prop := tokens? text.toList = some v.tokens

/-! ## Depth -/

mutual

/-- How many containers are nested in one another. -/
def depth : Json → Nat
  | .array items => depthOfItems items + 1
  | .object members => depthOfMembers members + 1
  | _ => 0

/-- The greatest depth of some items. -/
def depthOfItems : List Json → Nat
  | [] => 0
  | v :: rest => max (depth v) (depthOfItems rest)

/-- The greatest depth of the values of some members. -/
def depthOfMembers : List (String × Json) → Nat
  | [] => 0
  | (_, v) :: rest => max (depth v) (depthOfMembers rest)

end

mutual

/-- The tree as far as containers are nested no deeper than `room`; a container beyond that is
a leaf without a value. -/
def clip (room : Nat) : Json → Json
  | .array items => if room = 0 then .unreadable else .array (clipItems (room - 1) items)
  | .object members => if room = 0 then .unreadable else .object (clipMembers (room - 1) members)
  | v => v

/-- The items as far as there is room for containers. -/
def clipItems (room : Nat) : List Json → List Json
  | [] => []
  | v :: rest => clip room v :: clipItems room rest

/-- The members as far as there is room for containers. -/
def clipMembers (room : Nat) : List (String × Json) → List (String × Json)
  | [] => []
  | (key, v) :: rest => (key, clip room v) :: clipMembers room rest

end

theorem clipItems_eq_self {room : Nat} {items : List Json}
    (h : ∀ v ∈ items, v.depth ≤ room → v.clip room = v) (hdepth : depthOfItems items ≤ room) :
    clipItems room items = items := by
  induction items with
  | nil => rfl
  | cons v rest ih =>
      rw [depthOfItems, Nat.max_le] at hdepth
      rw [clipItems, h v List.mem_cons_self hdepth.1,
        ih (fun w hw => h w (List.mem_cons_of_mem v hw)) hdepth.2]

theorem clipMembers_eq_self {room : Nat} {members : List (String × Json)}
    (h : ∀ m ∈ members, m.2.depth ≤ room → m.2.clip room = m.2)
    (hdepth : depthOfMembers members ≤ room) : clipMembers room members = members := by
  induction members with
  | nil => rfl
  | cons m rest ih =>
      obtain ⟨key, v⟩ := m
      rw [depthOfMembers, Nat.max_le] at hdepth
      rw [clipMembers, h (key, v) List.mem_cons_self hdepth.1,
        ih (fun w hw => h w (List.mem_cons_of_mem _ hw)) hdepth.2]

/-- A tree with room for all its containers stays as it is. -/
theorem clip_eq_self {room : Nat} {v : Json} (h : v.depth ≤ room) : v.clip room = v := by
  induction v generalizing room with
  | null | bool b | number n | string s | unreadable => rfl
  | array items ih =>
      rw [depth] at h
      have hroom : ¬ room = 0 := by omega
      rw [clip, if_neg hroom, clipItems_eq_self (fun v hv hv' => ih v hv hv') (by omega)]
  | object members ih =>
      rw [depth] at h
      have hroom : ¬ room = 0 := by omega
      rw [clip, if_neg hroom, clipMembers_eq_self (fun m hm hm' => ih m hm hm') (by omega)]

/-! ## Reading -/

/-- The tree of some tokens; nothing where they are those of no tree. -/
def ofTokens? (ts : List Token) : Option Json :=
  (ts.foldlM Reader.step ⟨[], .value, .null⟩).bind fun r =>
    if r.expected = .nothing then some r.result else none

theorem parse?_eq_bind (text : String) : parse? text = (tokens? text.toList).bind ofTokens? := rfl

namespace Reader

/-- How deep a value may be nested where the reader stands. -/
def room (r : Reader) : Nat := maxDepth - r.frames.length

/-- The reader is where a value may stand. -/
def AtValue (r : Reader) : Prop := r.expected = .value ∨ r.expected = .valueOrEnd

/-- The reader takes the tokens of a value for the value. -/
def Takes (v : Json) : Prop :=
  ∀ (r : Reader) (rest : List Token), r.AtValue →
    (v.tokens ++ rest).foldlM step r = rest.foldlM step (r.put (v.clip r.room))

theorem step_eq_value? {r : Reader} (h : r.AtValue) {t : Token} (ht : t ≠ .closeArray) :
    r.step t = r.value? t := by
  unfold step
  rcases h with h | h
  · rw [h]
  · rw [h]
    cases t with
    | closeArray => exact absurd rfl ht
    | _ => rfl

/-- A value of one token goes where it stands. -/
theorem takes_of_token {v : Json} {t : Token} (htokens : v.tokens = [t]) (ht : t ≠ .closeArray)
    (hclip : ∀ n, v.clip n = v) (hvalue : ∀ r : Reader, r.value? t = some (r.put v)) :
    Takes v := by
  intro r rest hr
  rw [htokens, hclip, List.singleton_append, List.foldlM_cons, step_eq_value? hr ht, hvalue]
  rfl

/-- A container has a value if there is room for it. -/
theorem ite_hasRoom (r : Reader) (v : Json) :
    (if r.hasRoom then v else .unreadable) = if r.room = 0 then .unreadable else v := by
  rw [hasRoom, room]
  by_cases h : r.frames.length < maxDepth
  · have hroom : ¬ maxDepth - r.frames.length = 0 := by omega
    rw [if_pos (decide_eq_true h), if_neg hroom]
  · have hroom : maxDepth - r.frames.length = 0 := by omega
    rw [if_neg (by simp [h]), if_pos hroom]

/-- The value of a container that is complete. -/
theorem clip_array (r : Reader) (items : List Json) :
    (if r.hasRoom then .array (clipItems (maxDepth - (r.frames.length + 1)) items)
      else .unreadable) = (Json.array items).clip r.room := by
  rw [ite_hasRoom, clip, room, Nat.sub_add_eq]

theorem clip_object (r : Reader) (members : List (String × Json)) :
    (if r.hasRoom then .object (clipMembers (maxDepth - (r.frames.length + 1)) members)
      else .unreadable) = (Json.object members).clip r.room := by
  rw [ite_hasRoom, clip, room, Nat.sub_add_eq]

/-- Inside an array, behind an item: the items that follow, and the end of the array. -/
theorem foldlM_laterItems {items : List Json} (h : ∀ v ∈ items, Takes v) (sound : Bool)
    (done : List Json) (fs : List Frame) (result : Json) (rest : List Token) :
    (laterItems items ++ rest).foldlM step ⟨.array sound done :: fs, .commaOrEnd, result⟩ =
      rest.foldlM step (put ⟨fs, .commaOrEnd, result⟩
        (if sound then .array (done.reverse ++ clipItems (maxDepth - (fs.length + 1)) items)
          else .unreadable)) := by
  induction items generalizing done with
  | nil =>
      rw [clipItems, List.append_nil]
      rfl
  | cons v items ih =>
      have hv := h v List.mem_cons_self ⟨.array sound done :: fs, .value, result⟩
        (laterItems items ++ rest) (.inl rfl)
      have hlater := ih (fun w hw => h w (List.mem_cons_of_mem v hw))
        (v.clip (maxDepth - (fs.length + 1)) :: done)
      rw [List.reverse_cons, List.append_assoc, List.singleton_append] at hlater
      rw [clipItems, ← hlater, laterItems, List.cons_append, List.append_assoc,
        List.foldlM_cons]
      exact hv

/-- Inside an object, behind a member: the members that follow, and the end of the object. -/
theorem foldlM_laterMembers {members : List (String × Json)} (h : ∀ m ∈ members, Takes m.2)
    (sound : Bool) (done : List (String × Json)) (key : String) (fs : List Frame) (result : Json)
    (rest : List Token) :
    (laterMembers members ++ rest).foldlM step
        ⟨.object sound done key :: fs, .commaOrEnd, result⟩ =
      rest.foldlM step (put ⟨fs, .commaOrEnd, result⟩
        (if sound then .object (done.reverse ++ clipMembers (maxDepth - (fs.length + 1)) members)
          else .unreadable)) := by
  induction members generalizing done key with
  | nil =>
      rw [clipMembers, List.append_nil]
      rfl
  | cons m members ih =>
      obtain ⟨next, v⟩ := m
      have hkey : (laterMembers ((next, v) :: members) ++ rest).foldlM step
            ⟨.object sound done key :: fs, .commaOrEnd, result⟩ =
          (v.tokens ++ laterMembers members ++ rest).foldlM step
            ⟨.object (sound && true) done next :: fs, .value, result⟩ := rfl
      have hv := h (next, v) List.mem_cons_self
        ⟨.object sound done next :: fs, .value, result⟩
        (laterMembers members ++ rest) (.inl rfl)
      have hlater := ih (fun m hm => h m (List.mem_cons_of_mem _ hm))
        ((next, v.clip (maxDepth - (fs.length + 1))) :: done) next
      rw [List.reverse_cons, List.append_assoc, List.singleton_append] at hlater
      rw [clipMembers, ← hlater, hkey, Bool.and_true, List.append_assoc]
      exact hv

/-- A container is taken once its content is. -/
theorem takes_array {items : List Json} (h : ∀ v ∈ items, Takes v) : Takes (.array items) := by
  intro r rest hr
  have hopen (ts : List Token) : (Token.openArray :: ts).foldlM step r =
      ts.foldlM step ⟨.array r.hasRoom [] :: r.frames, .valueOrEnd, r.result⟩ := by
    rw [List.foldlM_cons, step_eq_value? hr (by simp)]
    rfl
  rw [← clip_array]
  cases items with
  | nil =>
      rw [tokens, List.cons_append, hopen]
      rfl
  | cons v items =>
      have hv := h v List.mem_cons_self ⟨.array r.hasRoom [] :: r.frames, .valueOrEnd, r.result⟩
        (laterItems items ++ rest) (.inr rfl)
      have hlater := foldlM_laterItems (fun w hw => h w (List.mem_cons_of_mem v hw)) r.hasRoom
        [v.clip (maxDepth - (r.frames.length + 1))] r.frames r.result rest
      rw [tokens, List.cons_append, hopen, List.append_assoc]
      exact hv.trans hlater

theorem takes_object {members : List (String × Json)} (h : ∀ m ∈ members, Takes m.2) :
    Takes (.object members) := by
  intro r rest hr
  have hopen (ts : List Token) : (Token.openObject :: ts).foldlM step r =
      ts.foldlM step ⟨.object r.hasRoom [] "" :: r.frames, .keyOrEnd, r.result⟩ := by
    rw [List.foldlM_cons, step_eq_value? hr (by simp)]
    rfl
  rw [← clip_object]
  cases members with
  | nil =>
      rw [tokens, List.cons_append, hopen]
      rfl
  | cons m members =>
      obtain ⟨key, v⟩ := m
      have hkey (ts : List Token) : (Token.text (some key) :: .colon :: ts).foldlM step
            ⟨.object r.hasRoom [] "" :: r.frames, .keyOrEnd, r.result⟩ =
          ts.foldlM step ⟨.object (r.hasRoom && true) [] key :: r.frames, .value, r.result⟩ := rfl
      have hv := h (key, v) List.mem_cons_self
        ⟨.object r.hasRoom [] key :: r.frames, .value, r.result⟩
        (laterMembers members ++ rest) (.inl rfl)
      have hlater := foldlM_laterMembers (fun m hm => h m (List.mem_cons_of_mem _ hm)) r.hasRoom
        [(key, v.clip (maxDepth - (r.frames.length + 1)))] key r.frames r.result rest
      rw [tokens, List.cons_append, hopen, List.cons_append, List.cons_append, hkey,
        Bool.and_true, List.append_assoc]
      exact hv.trans hlater

/-- The reader takes the tokens of every value for the value. -/
theorem takes (v : Json) : Takes v := by
  induction v with
  | null | bool b | number n | unreadable =>
      exact takes_of_token rfl (by simp) (fun _ => rfl) fun _ => rfl
  | string s => exact takes_of_token rfl (by simp) (fun _ => rfl) fun _ => rfl
  | array items ih => exact takes_array ih
  | object members ih => exact takes_object ih

end Reader

/-- The tokens of a tree are read as the tree, as far as it is not nested too deep. -/
theorem ofTokens?_tokens (v : Json) : ofTokens? v.tokens = some (v.clip maxDepth) := by
  have h := Reader.takes v ⟨[], .value, .null⟩ [] (.inl rfl)
  rw [List.append_nil] at h
  rw [ofTokens?, h]
  rfl

theorem Spells.parse?_eq_clip {text : String} {v : Json} (h : Spells text v) :
    parse? text = some (v.clip maxDepth) := by
  rw [parse?_eq_bind, h, Option.bind_some, ofTokens?_tokens]

/-- A text that spells a tree is read as the tree, unless the tree is nested too deep. -/
theorem Spells.parse?_eq_self {text : String} {v : Json} (h : Spells text v)
    (hdepth : v.depth ≤ maxDepth) : parse? text = some v := by
  rw [h.parse?_eq_clip, clip_eq_self hdepth]

end AssetAccess.Json
