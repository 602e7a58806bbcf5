set_option autoImplicit false

/-!
# Pieces of a text

Taking a text apart: a leading or trailing part removed, a part found anywhere,
and the segments between separators.  Everything is by structural recursion over
the characters, so that the equations of each function are its definition.
-/

namespace AssetAccess.Text

/-- What follows `lead` in a text that begins with it. -/
def dropLead? : List Char → List Char → Option (List Char)
  | [], cs => some cs
  | _ :: _, [] => none
  | l :: ls, c :: cs => if l = c then dropLead? ls cs else none

theorem dropLead?_append (lead cs : List Char) : dropLead? lead (lead ++ cs) = some cs := by
  induction lead with
  | nil => rfl
  | cons l ls ih => simp [dropLead?, ih]

theorem eq_append_of_dropLead? {lead cs rest : List Char} (h : dropLead? lead cs = some rest) :
    cs = lead ++ rest := by
  induction lead generalizing cs with
  | nil => simpa [dropLead?] using h
  | cons l ls ih =>
    cases cs with
    | nil => simp [dropLead?] at h
    | cons c cs =>
      simp only [dropLead?] at h
      split at h
      · rename_i hc
        rw [hc, ih h, List.cons_append]
      · simp at h

/-- A text begins with `lead`. -/
def beginsWith (lead cs : List Char) : Bool := (dropLead? lead cs).isSome

/-- A text ends with `tail`. -/
def finishesWith (tail cs : List Char) : Bool := beginsWith tail.reverse cs.reverse

/-- A text holds `part` somewhere. -/
def holds (part : List Char) : List Char → Bool
  | [] => beginsWith part []
  | c :: cs => beginsWith part (c :: cs) || holds part cs

/-- A text begins with `lead` exactly when `lead` is an initial part of it. -/
theorem beginsWith_iff (lead cs : List Char) : beginsWith lead cs = true ↔ lead <+: cs := by
  constructor
  · intro h
    obtain ⟨rest, hr⟩ := Option.isSome_iff_exists.1 h
    exact ⟨rest, (eq_append_of_dropLead? hr).symm⟩
  · rintro ⟨rest, rfl⟩
    simp [beginsWith, dropLead?_append]

/-- A text ends with `tail` exactly when `tail` is a final part of it. -/
theorem finishesWith_iff (tail cs : List Char) : finishesWith tail cs = true ↔ tail <:+ cs := by
  rw [finishesWith, beginsWith_iff, List.reverse_prefix]

/-- A text holds `part` exactly when `part` is a contiguous part of it. -/
theorem holds_iff (part cs : List Char) : holds part cs = true ↔ part <:+: cs := by
  induction cs with
  | nil => simp [holds, beginsWith_iff]
  | cons c cs ih => simp [holds, beginsWith_iff, ih, List.infix_cons_iff]

/-- The segments between separators: one more than there are separators. -/
def segments (separator : Char) : List Char → List (List Char)
  | [] => [[]]
  | c :: cs =>
    if c = separator then [] :: segments separator cs
    else
      match segments separator cs with
      | [] => [[c]]
      | s :: ss => (c :: s) :: ss

theorem segments_ne_nil (separator : Char) (cs : List Char) : segments separator cs ≠ [] := by
  cases cs with
  | nil => simp [segments]
  | cons c cs =>
    simp only [segments]
    split
    · simp
    · split <;> simp

/-- A text without separators is one segment. -/
theorem segments_of_not_mem {separator : Char} {cs : List Char} (h : separator ∉ cs) :
    segments separator cs = [cs] := by
  induction cs with
  | nil => rfl
  | cons c cs ih =>
    rw [List.mem_cons, not_or] at h
    have hc : ¬ c = separator := fun e => h.1 e.symm
    rw [segments, if_neg hc, ih h.2]

/-- The first segment ends at the first separator. -/
theorem segments_append_cons {separator : Char} {cs : List Char} (h : separator ∉ cs)
    (rest : List Char) :
    segments separator (cs ++ separator :: rest) = cs :: segments separator rest := by
  induction cs with
  | nil => rw [List.nil_append, segments, if_pos rfl]
  | cons c cs ih =>
    rw [List.mem_cons, not_or] at h
    have hc : ¬ c = separator := fun e => h.1 e.symm
    rw [List.cons_append, segments, if_neg hc, ih h.2]

/-- What follows the first separator; nothing in a text without one. -/
def afterFirst? (separator : Char) : List Char → Option (List Char)
  | [] => none
  | c :: cs => if c = separator then some cs else afterFirst? separator cs

/-- Two texts are the same but for the case of ASCII letters. -/
def equalIgnoringCase (a b : String) : Bool :=
  decide (a.toList.map Char.toLower = b.toList.map Char.toLower)

end AssetAccess.Text
