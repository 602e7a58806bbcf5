import AssetAccess.Decision.Claims
set_option autoImplicit false

/-!
# Paths through claims

A path is cut at each of its dots, and the pieces are looked up one inside the other, each in the
object that the piece before it leads to (`Json.at?`).  What they lead to is a claim if it is a
text or a list of texts.

So a path sees one entry, and the objects on the way to it.  Whatever is changed, added or removed
elsewhere makes no difference (`Claims.AgreeAlong.lookup?_eq`), and an entry under a key with a
dot is always elsewhere.
-/

namespace AssetAccess

/-! ## The keys of a path -/

namespace Text

theorem segments_eq_splitOn (separator : Char) (cs : List Char) :
    segments separator cs = cs.splitOn separator := by
  induction cs with
  | nil => rfl
  | cons c cs ih =>
      rw [segments, List.splitOn_cons_eq_if_modifyHead, ih]
      simp only [beq_iff_eq]
      split
      · rfl
      · cases hsegments : cs.splitOn separator with
        | nil => exact absurd hsegments (List.splitOn_ne_nil separator cs)
        | cons first rest => rfl

theorem not_mem_of_mem_segments {separator : Char} {cs s : List Char}
    (h : s ∈ segments separator cs) : separator ∉ s := by
  induction cs generalizing s with
  | nil =>
      rw [segments, List.mem_singleton] at h
      rw [h]
      exact List.not_mem_nil
  | cons c cs ih =>
      rw [segments] at h
      split at h
      · rcases List.mem_cons.mp h with rfl | h
        · exact List.not_mem_nil
        · exact ih h
      · rename_i hc
        split at h
        · rename_i hnil
          exact absurd hnil (segments_ne_nil separator cs)
        · rename_i first rest hsegments
          rw [hsegments] at ih
          rcases List.mem_cons.mp h with rfl | h
          · rw [List.mem_cons, not_or]
            exact ⟨fun heq => hc heq.symm, ih List.mem_cons_self⟩
          · exact ih (List.mem_cons_of_mem first h)

end Text

namespace Claims

/-- The keys of a path: the texts between its dots, which may be empty. -/
def keys (path : String) : List String := (Text.segments '.' path.toList).map String.ofList

theorem keys_ne_nil (path : String) : keys path ≠ [] := by
  rw [keys, ne_eq, List.map_eq_nil_iff]
  exact Text.segments_ne_nil _ _

/-- No key of a path has a dot. -/
theorem not_mem_of_mem_keys {path key : String} (h : key ∈ keys path) : '.' ∉ key.toList := by
  obtain ⟨s, hs, rfl⟩ := List.mem_map.mp h
  rw [String.toList_ofList]
  exact Text.not_mem_of_mem_segments hs

/-- The path is its keys with dots between them. -/
theorem intercalate_keys (path : String) : ".".intercalate (keys path) = path := by
  have hchars : (".".intercalate (keys path)).toList = path.toList := by
    rw [String.toList_intercalate, keys, List.map_map]
    simp only [Function.comp_def, String.toList_ofList, List.map_id']
    rw [Text.segments_eq_splitOn]
    exact List.intercalate_splitOn '.'
  exact String.toList_injective hchars

/-- Texts without dots are the keys of the path that has them with dots between them. -/
theorem keys_intercalate {texts : List String} (hne : texts ≠ [])
    (h : ∀ key ∈ texts, '.' ∉ key.toList) : keys (".".intercalate texts) = texts := by
  have hne' : texts.map String.toList ≠ [] := by simpa using hne
  have h' : ∀ s ∈ texts.map String.toList, '.' ∉ s := by simpa using h
  rw [keys, String.toList_intercalate, Text.segments_eq_splitOn]
  change (List.splitOn '.' (['.'].intercalate _)).map _ = _
  rw [List.splitOn_intercalate '.' h' hne', List.map_map]
  simp only [Function.comp_def, String.ofList_toList, List.map_id']

/-- So the keys of a path are the only way to write it as texts without dots, with dots between
them. -/
theorem keys_eq_iff (path : String) (texts : List String) :
    keys path = texts ↔
      texts ≠ [] ∧ (∀ key ∈ texts, '.' ∉ key.toList) ∧ ".".intercalate texts = path := by
  constructor
  · rintro rfl
    exact ⟨keys_ne_nil path, fun _ => not_mem_of_mem_keys, intercalate_keys path⟩
  · rintro ⟨hne, h, rfl⟩
    exact keys_intercalate hne h

/-- The keys behind a first one. -/
theorem keys_cons {key : String} (h : '.' ∉ key.toList) (path : String) :
    keys (key ++ "." ++ path) = key :: keys path := by
  have hchars : (key ++ "." ++ path).toList = key.toList ++ '.' :: path.toList := by simp
  rw [keys, hchars, Text.segments_append_cons h, List.map_cons, String.ofList_toList, keys]

end Claims

/-! ## What keys lead to -/

/-- What some keys lead to in a data tree, each in the object that the keys before it lead to. -/
def Json.at? : List String → Json → Option Json
  | [], v => some v
  | key :: keys, v => (v.get? key).bind (at? keys)

theorem Json.get?_eq_bind (key : String) (v : Json) :
    v.get? key = v.members?.bind (Table.last? key) := by
  cases v <;> rfl

theorem Json.at?_append (keys keys' : List String) (v : Json) :
    v.at? (keys ++ keys') = (v.at? keys).bind (at? keys') := by
  induction keys generalizing v with
  | nil => rfl
  | cons key keys ih =>
      rw [List.cons_append, at?, at?, Option.bind_assoc]
      exact congrArg _ (funext ih)

namespace ClaimValue

/-- The claim value as a data tree. -/
def toJson : ClaimValue → Json
  | .text s => .string s
  | .list items => .array (items.map .string)

theorem mapM_string?_eq_some_iff (items : List Json) (texts : List String) :
    items.mapM Json.string? = some texts ↔ items = texts.map .string := by
  induction items generalizing texts with
  | nil => cases texts <;> simp
  | cons v items ih =>
      rw [List.mapM_cons]
      cases texts with
      | nil => cases v <;> simp [Json.string?, Option.bind_eq_some_iff]
      | cons s texts =>
          cases v with
          | string t => simp [Json.string?, Option.bind_eq_some_iff, ih, and_assoc, and_comm]
          | _ => simp [Json.string?]

/-- A data tree is a claim value if it is a text, or a list of nothing but texts. -/
theorem ofJson?_eq_some_iff (v : Json) (value : ClaimValue) :
    ofJson? v = some value ↔ v = value.toJson := by
  cases v with
  | string s =>
      cases value <;> simp [ofJson?, toJson]
  | array items =>
      cases value <;> simp [ofJson?, toJson, mapM_string?_eq_some_iff]
  | _ => cases value <;> simp [ofJson?, toJson]

end ClaimValue

namespace Claims

/-- Descending by some segments, one object after the other, is following them as keys to an
object. -/
theorem bind_foldlM_descend? (v : Json) (segments : List (List Char)) :
    (v.members?.bind fun c => segments.foldlM descend? c) =
      (v.at? (segments.map String.ofList)).bind Json.members? := by
  induction segments generalizing v with
  | nil => exact Option.bind_fun_some _
  | cons s rest ih =>
      simp only [List.foldlM_cons, descend?, Option.bind_eq_bind, List.map_cons, Json.at?,
        Json.get?_eq_bind, Option.bind_assoc, ih]

/-- The claim of a path is what its keys lead to, if that is a claim value. -/
theorem lookup?_eq (c : Claims) (path : String) :
    c.lookup? path = ((Json.object c).at? (keys path)).bind ClaimValue.ofJson? := by
  rw [lookup?, keys]
  cases hlast : (Text.segments '.' path.toList).getLast? with
  | none => exact absurd (List.getLast?_eq_none_iff.mp hlast) (Text.segments_ne_nil _ _)
  | some leaf =>
      obtain ⟨before, hsegments⟩ := List.getLast?_eq_some_iff.mp hlast
      have hdescend := bind_foldlM_descend? (.object c) before
      rw [Json.members?, Option.bind_some] at hdescend
      rw [hsegments, List.dropLast_concat, hdescend, List.map_append, Json.at?_append]
      simp only [List.map_cons, List.map_nil, Json.at?, Json.get?_eq_bind, Option.bind_fun_some]
      rw [← Option.bind_assoc (f := Json.members?)]
      cases ((Json.object c).at? (before.map String.ofList)).bind Json.members? <;> rfl

end Claims

/-! ## Changes elsewhere -/

namespace Table

variable {α : Type}

/-- The table with the entry of a key changed, added or removed. -/
def put (key : String) (value? : Option α) (entries : List (String × α)) : List (String × α) :=
  (entries.filter fun e => e.1 != key) ++ (value?.map fun v => (key, v)).toList

theorem last?_filter_ne (key other : String) (entries : List (String × α)) :
    last? other (entries.filter fun e => e.1 != key) =
      if other = key then none else last? other entries := by
  induction entries with
  | nil => simp [last?]
  | cons e rest ih =>
      obtain ⟨k, v⟩ := e
      by_cases hk : k = key
      · rw [List.filter_cons_of_neg (by simp [hk]), ih, hk, last?]
        by_cases ho : other = key
        · rw [if_pos ho, if_pos ho]
        · rw [if_neg ho, if_neg ho, if_neg (Ne.symm ho)]
          cases last? other rest <;> rfl
      · rw [List.filter_cons_of_pos (by simp [hk]), last?, ih, last?]
        by_cases ho : other = key
        · rw [if_pos ho, if_pos ho, ho, if_neg hk]
        · rw [if_neg ho, if_neg ho]

theorem last?_put_self (key : String) (value? : Option α) (entries : List (String × α)) :
    last? key (put key value? entries) = value? := by
  rw [put, last?_append, last?_filter_ne, if_pos rfl]
  cases value? <;> simp [last?]

theorem last?_put_of_ne {key other : String} (h : other ≠ key) (value? : Option α)
    (entries : List (String × α)) : last? other (put key value? entries) = last? other entries := by
  rw [put, last?_append, last?_filter_ne, if_neg h]
  cases value? <;> simp [last?, h.symm]

end Table

namespace Claims

/-- The claims with the entry at a place changed, added or removed, where the keys before it lead
to an object. -/
def alter (change : Option Json → Option Json) : List String → Claims → Claims
  | [], c => c
  | [key], c => Table.put key (change (Table.last? key c)) c
  | key :: next :: place, c =>
    match Table.last? key c with
    | some (.object inner) => Table.put key (some (.object (alter change (next :: place) inner))) c
    | _ => c

/-- Two subjects have the same entry at some place on the way along some keys, and objects before
it; or objects all the way.  All else may be different. -/
inductive AgreeAlong : List String → Claims → Claims → Prop where
  | entry {key : String} {keys : List String} {c c' : Claims} :
      Table.last? key c = Table.last? key c' → AgreeAlong (key :: keys) c c'
  | inside {key : String} {keys : List String} {c c' inner inner' : Claims} :
      Table.last? key c = some (.object inner) → Table.last? key c' = some (.object inner') →
      AgreeAlong keys inner inner' → AgreeAlong (key :: keys) c c'
  | objects {c c' : Claims} : AgreeAlong [] c c'

theorem AgreeAlong.at?_eq {keys : List String} {c c' : Claims} (h : AgreeAlong keys c c') :
    ((Json.object c).at? keys).bind ClaimValue.ofJson? =
      ((Json.object c').at? keys).bind ClaimValue.ofJson? := by
  induction h with
  | entry hsame => rw [Json.at?, Json.at?, Json.get?, Json.get?, hsame]
  | inside hc hc' _ ih =>
      rw [Json.at?, Json.at?, Json.get?, Json.get?, hc, hc']
      exact ih
  | objects => rfl

theorem agreeAlong_alter {place keys : List String} (h : ¬ place <+: keys) (c : Claims)
    (change : Option Json → Option Json) : AgreeAlong keys c (alter change place c) := by
  induction place generalizing keys c with
  | nil => exact absurd (List.nil_prefix) h
  | cons first rest ih =>
      cases keys with
      | nil => exact .objects
      | cons key keys =>
          rw [List.cons_prefix_cons, not_and] at h
          by_cases hkey : first = key
          · cases rest with
            | nil => exact absurd List.nil_prefix (h hkey)
            | cons next place =>
                rw [alter]
                subst hkey
                split
                · rename_i inner hinner
                  exact .inside hinner (Table.last?_put_self _ _ _) (ih (h rfl) inner)
                · exact .entry rfl
          · have hother : Table.last? key (alter change (first :: rest) c) = Table.last? key c := by
              cases rest with
              | nil => exact Table.last?_put_of_ne (Ne.symm hkey) _ _
              | cons next place =>
                  rw [alter]
                  split
                  · exact Table.last?_put_of_ne (Ne.symm hkey) _ _
                  · rfl
            exact .entry hother.symm

/-- So a path leads to the same where two subjects agree along its keys. -/
theorem AgreeAlong.lookup?_eq {c c' : Claims} {path : String} (h : AgreeAlong (keys path) c c') :
    c.lookup? path = c'.lookup? path := by
  rw [c.lookup?_eq, c'.lookup?_eq, h.at?_eq]

/-- A path behind a key is looked up in the object under that key. -/
theorem lookup?_behind {key : String} (h : '.' ∉ key.toList) (c : Claims) (path : String) :
    c.lookup? (key ++ "." ++ path) =
      match Table.last? key c with
      | some (.object inner) => lookup? inner path
      | _ => none := by
  rw [lookup?_eq, keys_cons h, Json.at?, Json.get?]
  obtain ⟨first, rest, hkeys⟩ := List.exists_cons_of_ne_nil (keys_ne_nil path)
  split
  · rename_i inner hinner
    rw [hinner, Option.bind_some, lookup?_eq]
  · rename_i hother
    rw [hkeys]
    cases hlast : Table.last? key c with
    | none => rfl
    | some v =>
        cases v with
        | object inner => exact absurd hlast (hother inner)
        | _ => rfl

end Claims

/-- A claim path leads to what its keys lead to, one inside the other.  The keys are the texts
between its dots, empty ones too.  There is a claim where they lead to a text, or to a list of
nothing but texts, and nowhere else.  So a path behind a key is looked up in the object under that
key.  Changing, adding or removing an entry makes no difference to a path that does not lead
through it, and none to any path if there is a dot in a key on the way to the entry, or in its own.
Of two subjects all may be different but the entry that the path leads to, as long as both have
objects on the way to it. -/
theorem claim_paths_nested (c : Claims) (path : String) :
    (∀ texts, Claims.keys path = texts ↔
      texts ≠ [] ∧ (∀ key ∈ texts, '.' ∉ key.toList) ∧ ".".intercalate texts = path) ∧
    (∀ value, c.lookup? path = some value ↔
      (Json.object c).at? (Claims.keys path) = some value.toJson) ∧
    (∀ key : String, '.' ∉ key.toList → c.lookup? (key ++ "." ++ path) =
      match Table.last? key c with
      | some (.object inner) => Claims.lookup? inner path
      | _ => none) ∧
    (∀ place, ¬ place <+: Claims.keys path ∨ (∃ key ∈ place, '.' ∈ key.toList) →
      ∀ change, (c.alter change place).lookup? path = c.lookup? path) ∧
    (∀ c', c.AgreeAlong (Claims.keys path) c' → c'.lookup? path = c.lookup? path) := by
  refine ⟨Claims.keys_eq_iff path, ?_, ?_, ?_, ?_⟩
  · intro value
    rw [Claims.lookup?_eq, Option.bind_eq_some_iff]
    simp only [ClaimValue.ofJson?_eq_some_iff, exists_eq_right]
  · intro key hkey
    exact Claims.lookup?_behind hkey c path
  · intro place hplace change
    have hbeside : ¬ place <+: Claims.keys path := by
      rcases hplace with hbeside | ⟨key, hkey, hdot⟩
      · exact hbeside
      · exact fun hbehind => Claims.not_mem_of_mem_keys (hbehind.subset hkey) hdot
    exact (Claims.agreeAlong_alter hbeside c change).lookup?_eq.symm
  · intro c' hagree
    exact hagree.lookup?_eq.symm

/-! ## The name of a unit -/

/-- Claims of someone in a unit of an organization.  A key with a dot looks as if it led to the
name of the unit as well. -/
def unitClaims : Claims :=
  [("org", .object [("unit", .object [("name", .string "R&D")]), ("size", .number (.integer 12))]),
    ("org.unit", .object [("name", .string "Sales")])]

/-- Claims of someone in the same unit of what is now a company. -/
def companyClaims : Claims :=
  [("roles", .array [.string "reader"]),
    ("org", .object [("company", .bool true), ("unit", .object [("name", .string "R&D")])])]

/-- The name of the unit is found from one object to the next.  It stays when the size of the
organization goes, when the key with the dot goes, and in all that is different for the
company. -/
theorem unit_name_found :
    unitClaims.lookup? "org.unit.name" = some (.text "R&D") ∧
    ('.' ∉ "org".toList ∧
      Claims.lookup? [("unit", .object [("name", .string "R&D")]), ("size", .number (.integer 12))]
        "unit.name" = some (.text "R&D")) ∧
    (¬ ["org", "size"] <+: Claims.keys "org.unit.name" ∧
      (unitClaims.alter (fun _ => none) ["org", "size"]).lookup? "org.unit.name" =
        some (.text "R&D")) ∧
    ((∃ key ∈ ["org.unit"], '.' ∈ key.toList) ∧
      (unitClaims.alter (fun _ => none) ["org.unit"]).lookup? "org.unit.name" =
        some (.text "R&D")) ∧
    (unitClaims.AgreeAlong (Claims.keys "org.unit.name") companyClaims ∧
      companyClaims.lookup? "org.unit.name" = some (.text "R&D")) := by
  have hkeys : Claims.keys "org.unit.name" = ["org", "unit", "name"] := by decide
  have hfound : unitClaims.lookup? "org.unit.name" = some (.text "R&D") := by decide
  have hdot : '.' ∉ "org".toList := by decide
  have hbeside : ¬ ["org", "size"] <+: Claims.keys "org.unit.name" := by
    rw [hkeys]
    decide
  have hdotted : ∃ key ∈ ["org.unit"], '.' ∈ key.toList := by decide
  have hagree : unitClaims.AgreeAlong (Claims.keys "org.unit.name") companyClaims := by
    rw [hkeys]
    exact .inside rfl rfl (.entry rfl)
  obtain ⟨_, _, hunit, _, _⟩ := claim_paths_nested unitClaims "unit.name"
  obtain ⟨_, _, _, haltered, hother⟩ := claim_paths_nested unitClaims "org.unit.name"
  have hinner := (hunit "org" hdot).symm.trans hfound
  refine ⟨hfound, ⟨hdot, hinner⟩, ⟨hbeside, ?_⟩, ⟨hdotted, ?_⟩, ⟨hagree, ?_⟩⟩
  · rw [haltered _ (.inl hbeside), hfound]
  · rw [haltered _ (.inr hdotted), hfound]
  · rw [hother _ hagree, hfound]

end AssetAccess
