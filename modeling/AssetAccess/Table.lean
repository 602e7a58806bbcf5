set_option autoImplicit false

/-!
# Tables of entries

Entries under text keys, kept as a list in the order in which they were written.
Two readings of a repeated key occur: in definitions the first entry counts, in data
the last one.
-/

namespace AssetAccess.Table

/-- The value of the first entry with a key. -/
def first? {α : Type} (key : String) : List (String × α) → Option α
  | [] => none
  | (k, v) :: rest => if k = key then some v else first? key rest

/-- The value of the last entry with a key. -/
def last? {α : Type} (key : String) : List (String × α) → Option α
  | [] => none
  | (k, v) :: rest =>
    match last? key rest with
    | some w => some w
    | none => if k = key then some v else none

/-- Some entry has the key. -/
def hasKey {α : Type} (key : String) (entries : List (String × α)) : Bool :=
  entries.any fun e => e.1 == key

theorem first?_isSome {α : Type} (key : String) (entries : List (String × α)) :
    (first? key entries).isSome = hasKey key entries := by
  induction entries with
  | nil => rfl
  | cons e rest ih =>
    obtain ⟨k, v⟩ := e
    by_cases h : k = key
    · simp [first?, hasKey, h]
    · have ih' : (first? key rest).isSome = rest.any fun e => e.1 == key := ih
      simp [first?, hasKey, h, ih']

/-- Where an earlier part has the key, a later one does not count. -/
theorem first?_append {α : Type} (key : String) (a b : List (String × α)) :
    first? key (a ++ b) = (first? key a).or (first? key b) := by
  induction a with
  | nil => rfl
  | cons e rest ih =>
    obtain ⟨k, v⟩ := e
    by_cases h : k = key
    · simp [first?, h]
    · simp [first?, h, ih]

/-- Where a later part has the key, an earlier one does not count. -/
theorem last?_append {α : Type} (key : String) (a b : List (String × α)) :
    last? key (a ++ b) = (last? key b).or (last? key a) := by
  induction a with
  | nil => simp [last?]
  | cons e rest ih =>
    obtain ⟨k, v⟩ := e
    simp only [List.cons_append, last?, ih]
    cases last? key b <;> simp

end AssetAccess.Table
