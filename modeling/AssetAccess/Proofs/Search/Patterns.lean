import AssetAccess.Search.Wildcard
set_option autoImplicit false

/-!
# Patterns for a text

The patterns that an index is asked for are described here by what they consist of, whatever they
are made by.  In a wildcard pattern a text is written with a backslash in front of each character
that does not stand for itself, and with a star where there may be more
(`Wildcard.ofList_holding`).  Of a regular expression is asked what stands between a caret at its
front and a dollar sign at its end (`Regexp.unwrapped_iff`).
-/

namespace AssetAccess

namespace Wildcard

/-- The text as it stands in a pattern for itself. -/
def literally (s : String) : String :=
  String.ofList (s.toList.flatMap fun c => if c = '\\' ∨ c = '*' ∨ c = '?' then ['\\', c] else [c])

theorem isSpecial_iff (c : Char) : isSpecial c = true ↔ c = '\\' ∨ c = '*' ∨ c = '?' := by
  simp [isSpecial, or_assoc]

theorem ofList_escape (s : String) : String.ofList (escape s.toList) = literally s := by
  rw [literally]
  congr 1
  induction s.toList with
  | nil => rfl
  | cons c cs ih =>
      simp only [escape, isSpecial_iff, List.flatMap_cons, ← ih]
      split
      · rfl
      · rfl

theorem ofList_holding (s : String) :
    String.ofList (holding s.toList) = "*" ++ literally s ++ "*" := by
  rw [← ofList_escape, ← String.toList_inj]
  simp [holding]

theorem ofList_beginning (s : String) :
    String.ofList (beginning s.toList) = literally s ++ "*" := by
  rw [← ofList_escape, ← String.toList_inj]
  simp [beginning]

theorem ofList_ending (s : String) : String.ofList (ending s.toList) = "*" ++ literally s := by
  rw [← ofList_escape, ← String.toList_inj]
  simp [ending]

end Wildcard

namespace Regexp

/-- The characters stand between a caret and a dollar sign. -/
def wrapped (body : List Char) : List Char := '^' :: (body ++ ['$'])

/-- The second regular expression is the first one without a caret and a dollar sign around it,
where it has both. -/
inductive Unwrapped : List Char → List Char → Prop where
  | body (body : List Char) : Unwrapped (wrapped body) body
  | whole {p : List Char} : (∀ body, p ≠ wrapped body) → Unwrapped p p

theorem wrapped_or_not (p : List Char) : (∃ body, p = wrapped body) ∨ ∀ body, p ≠ wrapped body := by
  rw [← not_exists]
  exact Classical.em _

/-- The first and the last character of a wrapped body are cut off. -/
theorem withoutAnchors_wrapped (body : List Char) :
    Wildcard.withoutAnchors (wrapped body) = body := by
  simp [wrapped, Wildcard.withoutAnchors]

/-- What is no wrapped body is left as it is. -/
theorem withoutAnchors_of_not_wrapped {p : List Char} (h : ∀ body, p ≠ wrapped body) :
    Wildcard.withoutAnchors p = p := by
  unfold Wildcard.withoutAnchors
  split
  · rename_i r
    split
    · rename_i body hreverse
      have hr : r = body.reverse ++ ['$'] := by
        rw [← List.reverse_reverse r, hreverse, List.reverse_cons]
      exact absurd (congrArg ('^' :: ·) hr) (h body.reverse)
    · rfl
  · rfl

/-- What is left of a regular expression is the one without a caret and a dollar sign. -/
theorem unwrapped_iff {p pattern : List Char} :
    Unwrapped p pattern ↔ Wildcard.withoutAnchors p = pattern := by
  constructor
  · intro h
    cases h with
    | body => exact withoutAnchors_wrapped pattern
    | whole hnot => exact withoutAnchors_of_not_wrapped hnot
  · rintro rfl
    rcases wrapped_or_not p with ⟨body, rfl⟩ | hnot
    · rw [withoutAnchors_wrapped]
      exact .body body
    · rw [withoutAnchors_of_not_wrapped hnot]
      exact .whole hnot

end Regexp

end AssetAccess
