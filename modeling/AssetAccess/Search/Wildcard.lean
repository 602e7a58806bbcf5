import AssetAccess.Text.Pieces
set_option autoImplicit false

/-!
# Patterns of the index

Wildcard patterns know two metacharacters and an escape; a literal text goes into a
pattern with all three escaped.  Pattern queries of the index match whole values, so
the anchors that a regular expression may carry are dropped before it is handed over.
-/

namespace AssetAccess.Wildcard

/-- The characters that do not stand for themselves in a pattern. -/
def isSpecial (c : Char) : Bool := c == '\\' || c == '*' || c == '?'

/-- The pattern that matches a text and nothing else. -/
def escape : List Char → List Char
  | [] => []
  | c :: cs => if isSpecial c then '\\' :: c :: escape cs else c :: escape cs

/-- Two texts never have the same escaped form. -/
theorem escape_injective {a b : List Char} (h : escape a = escape b) : a = b := by
  induction a generalizing b with
  | nil =>
    cases b with
    | nil => rfl
    | cons c cs => simp only [escape] at h; split at h <;> simp at h
  | cons c cs ih =>
    cases b with
    | nil => simp only [escape] at h; split at h <;> simp at h
    | cons d ds =>
      simp only [escape] at h
      split at h <;> rename_i hc <;> split at h <;> rename_i hd
      · simp only [List.cons.injEq, true_and] at h
        rw [h.1, ih h.2]
      · simp only [List.cons.injEq] at h
        rw [← h.1] at hd
        exact absurd rfl hd
      · simp only [List.cons.injEq] at h
        rw [h.1] at hc
        exact absurd rfl hc
      · simp only [List.cons.injEq] at h
        rw [h.1, ih h.2]

/-- The pattern of the texts that hold a text. -/
def holding (cs : List Char) : List Char := '*' :: escape cs ++ ['*']

/-- The pattern of the texts that begin with a text. -/
def beginning (cs : List Char) : List Char := escape cs ++ ['*']

/-- The pattern of the texts that end with a text. -/
def ending (cs : List Char) : List Char := '*' :: escape cs

/-- The text without the caret at its front and the dollar sign at its end, where it has both. -/
def withoutAnchors (cs : List Char) : List Char :=
  match cs with
  | '^' :: r =>
    match r.reverse with
    | '$' :: body => body.reverse
    | _ => cs
  | _ => cs

end AssetAccess.Wildcard
