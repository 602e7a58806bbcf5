import AssetAccess.Proofs.Search.Conditions
set_option autoImplicit false

/-!
# Anchors of regular expressions

A regular expression is read token by token: a backslash and the character behind it are one
token, and every other character is one.  A caret at the front and a dollar sign at the end are
anchors where they are tokens, and the index, which matches whole values, does not want them.

The anchors are cut off by looking at the first and the last character.  A caret at the front is
always a token.  A dollar sign at the end is not one behind a backslash that escapes it, and then
its backslash is left at the end of the pattern, where it escapes nothing (`anchors_cut_iff`).
-/

namespace AssetAccess

namespace Regexp

/-! ## Tokens -/

/-- A token of a regular expression. -/
inductive Token where
  /-- a backslash and the character behind it -/
  | escaped (c : Char)
  /-- any other character -/
  | bare (c : Char)
  deriving DecidableEq

/-- The characters of a token. -/
def Token.chars : Token → List Char
  | .escaped c => ['\\', c]
  | .bare c => [c]

/-- The tokens of a regular expression, from left to right. -/
def tokens : List Char → List Token
  | [] => []
  | [c] => [.bare c]
  | c :: d :: p => if c = '\\' then .escaped d :: tokens p else .bare c :: tokens (d :: p)

/-- The last token is a backslash that escapes nothing. -/
def Dangles (p : List Char) : Prop := (tokens p).getLast? = some (.bare '\\')

instance (p : List Char) : Decidable (Dangles p) := inferInstanceAs (Decidable (_ = _))

/-- The first token is a caret, and the last one an escaped dollar sign. -/
def EndsEscaped (p : List Char) : Prop :=
  (tokens p).head? = some (.bare '^') ∧ (tokens p).getLast? = some (.escaped '$')

/-- The regular expression without its first and its last token, if they are a caret and a
dollar sign. -/
def withoutAnchorTokens (p : List Char) : List Char :=
  match tokens p with
  | .bare '^' :: ts =>
    if ts.getLast? = some (.bare '$') then ts.dropLast.flatMap Token.chars else p
  | _ => p

/-- The tokens hold all characters of the regular expression, in order. -/
theorem flatMap_tokens (p : List Char) : (tokens p).flatMap Token.chars = p := by
  fun_induction tokens p with
  | case1 => rfl
  | case2 c => rfl
  | case3 d p ih => rw [List.flatMap_cons, ih, Token.chars]; rfl
  | case4 c d p hc ih => rw [List.flatMap_cons, ih, Token.chars]; rfl

theorem tokens_of_ne {c : Char} (hc : c ≠ '\\') (p : List Char) :
    tokens (c :: p) = .bare c :: tokens p := by
  cases p with
  | nil => rfl
  | cons d p => rw [tokens, if_neg hc]

/-- In front of what dangles, a token changes nothing. -/
theorem dangles_iff_of_cons {t : Token} {p q : List Char} (ht : t ≠ .bare '\\')
    (htokens : tokens q = t :: tokens p) : Dangles q ↔ Dangles p := by
  rw [Dangles, Dangles, htokens, List.getLast?_cons]
  cases (tokens p).getLast? with
  | none => simp [ht]
  | some t' => simp

theorem tokens_ne_nil_of_dangles {p : List Char} (h : Dangles p) : tokens p ≠ [] := by
  intro hnil
  rw [Dangles, hnil] at h
  cases h

/-- A character at the end is a token, unless there is a backslash to escape it. -/
theorem tokens_concat (p : List Char) (c : Char) :
    tokens (p ++ [c]) =
      if Dangles p then (tokens p).dropLast ++ [.escaped c] else tokens p ++ [.bare c] := by
  fun_induction tokens p with
  | case1 => rfl
  | case2 d =>
      by_cases hd : d = '\\'
      · simp [tokens, Dangles, hd]
      · simp [tokens, Dangles, hd]
  | case3 d p ih =>
      have hdangles : Dangles ('\\' :: d :: p) ↔ Dangles p :=
        dangles_iff_of_cons (t := .escaped d) (by simp) (by rw [tokens, if_pos rfl])
      rw [List.cons_append, List.cons_append, tokens, if_pos rfl, ih]
      by_cases h : Dangles p
      · rw [if_pos h, if_pos (hdangles.mpr h),
          List.dropLast_cons_of_ne_nil (tokens_ne_nil_of_dangles h), List.cons_append]
      · rw [if_neg h, if_neg (mt hdangles.mp h), List.cons_append]
  | case4 d e p hd ih =>
      have hdangles : Dangles (d :: e :: p) ↔ Dangles (e :: p) :=
        dangles_iff_of_cons (t := .bare d) (by simpa using hd) (tokens_of_ne hd _)
      rw [List.cons_append, tokens_of_ne hd, ih]
      by_cases h : Dangles (e :: p)
      · rw [if_pos h, if_pos (hdangles.mpr h),
          List.dropLast_cons_of_ne_nil (tokens_ne_nil_of_dangles h), List.cons_append]
      · rw [if_neg h, if_neg (mt hdangles.mp h), List.cons_append]

/-- The last token stands at the end of the regular expression. -/
theorem exists_eq_append_of_getLast? {p : List Char} {t : Token}
    (h : (tokens p).getLast? = some t) :
    p = (tokens p).dropLast.flatMap Token.chars ++ t.chars := by
  obtain ⟨ts, hts⟩ := List.getLast?_eq_some_iff.mp h
  have hflat := flatMap_tokens p
  rw [hts, List.dropLast_concat]
  rw [hts, List.flatMap_append, List.flatMap_singleton] at hflat
  exact hflat.symm

/-! ## Patterns between a caret and a dollar sign -/

theorem tokens_wrapped (body : List Char) :
    tokens (wrapped body) = .bare '^' ::
      if Dangles body then (tokens body).dropLast ++ [.escaped '$']
      else tokens body ++ [.bare '$'] := by
  rw [wrapped, tokens_of_ne (by decide), tokens_concat]

/-- Behind a body that dangles, the dollar sign is escaped. -/
theorem endsEscaped_wrapped_iff (body : List Char) : EndsEscaped (wrapped body) ↔ Dangles body := by
  rw [EndsEscaped, tokens_wrapped]
  by_cases h : Dangles body
  · simp [h, List.getLast?_cons]
  · simp [h, List.getLast?_cons]

theorem not_dangles_wrapped (body : List Char) : ¬ Dangles (wrapped body) := by
  rw [Dangles, tokens_wrapped]
  by_cases h : Dangles body
  · simp [h, List.getLast?_cons]
  · simp [h, List.getLast?_cons]

/-- The first and the last token of a wrapped body are cut off, unless the dollar sign is
escaped. -/
theorem withoutAnchorTokens_wrapped (body : List Char) :
    withoutAnchorTokens (wrapped body) = if Dangles body then wrapped body else body := by
  rw [withoutAnchorTokens, tokens_wrapped]
  by_cases h : Dangles body
  · simp [h]
  · simp [h, flatMap_tokens]

/-- A pattern that ends in an escaped dollar sign is a wrapped body. -/
theorem EndsEscaped.exists_wrapped {p : List Char} (h : EndsEscaped p) :
    ∃ body, p = wrapped body := by
  obtain ⟨hhead, hlast⟩ := h
  have hend := exists_eq_append_of_getLast? hlast
  obtain ⟨ts, hts⟩ := List.head?_eq_some_iff.mp hhead
  rw [hts] at hlast hend
  have hne : ts ≠ [] := by
    rintro rfl
    cases hlast
  rw [List.dropLast_cons_of_ne_nil hne, List.flatMap_cons] at hend
  refine ⟨ts.dropLast.flatMap Token.chars ++ ['\\'], ?_⟩
  rw [hend]
  simp [wrapped, Token.chars]

theorem EndsEscaped.not_of_not_wrapped {p : List Char} (h : ∀ body, p ≠ wrapped body) :
    ¬ EndsEscaped p := by
  intro hends
  obtain ⟨body, hbody⟩ := hends.exists_wrapped
  exact h body hbody

/-- No tokens are cut off what is no wrapped body. -/
theorem withoutAnchorTokens_of_not_wrapped {p : List Char} (h : ∀ body, p ≠ wrapped body) :
    withoutAnchorTokens p = p := by
  unfold withoutAnchorTokens
  split
  · rename_i ts hts
    split
    · rename_i hlast
      have hflat := flatMap_tokens p
      obtain ⟨ts', rfl⟩ := List.getLast?_eq_some_iff.mp hlast
      rw [hts, List.flatMap_cons, List.flatMap_append, List.flatMap_singleton] at hflat
      exact absurd hflat.symm (h (ts'.flatMap Token.chars))
    · rfl
  · rfl

/-! ## Cutting the anchors off -/

/-- Where the pattern ends in an escaped dollar sign, and nowhere else, more is cut off than
the anchors. -/
theorem withoutAnchors_eq_iff (p : List Char) :
    Wildcard.withoutAnchors p = withoutAnchorTokens p ↔ ¬ EndsEscaped p := by
  rcases wrapped_or_not p with ⟨body, rfl⟩ | hnot
  · rw [withoutAnchors_wrapped, withoutAnchorTokens_wrapped, endsEscaped_wrapped_iff]
    by_cases h : Dangles body
    · have hlonger : body ≠ wrapped body := by
        intro heq
        have hlength := congrArg List.length heq
        simp only [wrapped, List.length_cons, List.length_append, List.length_nil] at hlength
        omega
      simp [h, hlonger]
    · simp [h]
  · rw [withoutAnchors_of_not_wrapped hnot, withoutAnchorTokens_of_not_wrapped hnot]
    exact iff_of_true rfl (EndsEscaped.not_of_not_wrapped hnot)

/-- There the backslash is left at the end. -/
theorem dangles_withoutAnchors_iff (p : List Char) :
    Dangles (Wildcard.withoutAnchors p) ↔ Dangles p ∨ EndsEscaped p := by
  rcases wrapped_or_not p with ⟨body, rfl⟩ | hnot
  · rw [withoutAnchors_wrapped, endsEscaped_wrapped_iff]
    simp [not_dangles_wrapped]
  · rw [withoutAnchors_of_not_wrapped hnot]
    simp [EndsEscaped.not_of_not_wrapped hnot]

/-- What is cut off are a caret and a dollar sign all the same. -/
theorem EndsEscaped.eq_wrapped {p : List Char} (h : EndsEscaped p) :
    p = wrapped (Wildcard.withoutAnchors p) := by
  obtain ⟨body, rfl⟩ := h.exists_wrapped
  rw [withoutAnchors_wrapped]

end Regexp

/-! ## The pattern of a condition -/

/-- Of two operands of a text test, one names a field and the other one is a literal. -/
inductive TextOperand.FieldAndLiteral (name value : String) :
    TextOperand → TextOperand → Prop where
  | fieldFirst {left right : TextOperand} :
      left.indexName? = some name → right.literal? = some value →
      FieldAndLiteral name value left right
  | literalFirst {left right : TextOperand} :
      left.literal? = some value → right.indexName? = some name →
      FieldAndLiteral name value left right

/-- Such a test is compiled to the clause of its field and its literal. -/
theorem TextOperand.FieldAndLiteral.compile {name value : String} {left right : TextOperand}
    (h : FieldAndLiteral name value left right) (op : TextTest) :
    (Formula.textTest op [left, right]).compile = op.clause name value := by
  cases h with
  | fieldFirst hname hvalue => exact op.compile_field_literal hname hvalue
  | literalFirst hvalue hname => exact op.compile_literal_field hname hvalue

/-- When only anchors are cut off a regular expression.  A search for the values of a field that
match one asks for its pattern: without the caret at the front and the dollar sign at the end,
where these are tokens, and as it is otherwise, unless the dollar sign at the end of a pattern
with a caret at the front is escaped.  Then both characters are cut off all the same, so that
the pattern dangles.  No other pattern dangles that did not before. -/
theorem anchors_cut_iff {name value : String} {left right : TextOperand}
    (h : TextOperand.FieldAndLiteral name value left right) :
    ∃ pattern, (Formula.textTest .regex [left, right]).compile = .regexp name pattern ∧
      (pattern.toList = Regexp.withoutAnchorTokens value.toList ↔
        ¬ Regexp.EndsEscaped value.toList) ∧
      (Regexp.EndsEscaped value.toList → value.toList = Regexp.wrapped pattern.toList) ∧
      (Regexp.Dangles pattern.toList ↔
        Regexp.Dangles value.toList ∨ Regexp.EndsEscaped value.toList) := by
  refine ⟨String.ofList (Wildcard.withoutAnchors value.toList), h.compile .regex, ?_⟩
  rw [String.toList_ofList]
  exact ⟨Regexp.withoutAnchors_eq_iff _, Regexp.EndsEscaped.eq_wrapped,
    Regexp.dangles_withoutAnchors_iff _⟩

/-- A price in dollars, between what looks like anchors: the dollar sign is meant as itself. -/
def pricePattern : String := "^9\\$"

/-- Not only anchors are cut off: of a price in dollars, the search asks for a pattern without
the dollar sign, which ends in its backslash. -/
theorem escaped_dollar_cut_off :
    ¬ (∀ (name value : String) (left right : TextOperand),
        TextOperand.FieldAndLiteral name value left right →
        (Formula.textTest .regex [left, right]).compile =
          .regexp name (String.ofList (Regexp.withoutAnchorTokens value.toList))) ∧
    Regexp.withoutAnchorTokens pricePattern.toList = pricePattern.toList ∧
    (Formula.textTest .regex [.field "$aas#idShort", .text pricePattern]).compile =
      .regexp "idShort.keyword" "9\\" ∧
    ¬ Regexp.Dangles pricePattern.toList ∧ Regexp.Dangles "9\\".toList := by
  have hcompile : (Formula.textTest .regex [.field "$aas#idShort", .text pricePattern]).compile =
      .regexp "idShort.keyword" "9\\" := rfl
  refine ⟨?_, by decide, hcompile, by decide, by decide⟩
  intro hall
  have hpattern := hall "idShort.keyword" pricePattern (.field "$aas#idShort") (.text pricePattern)
    (.fieldFirst rfl rfl)
  rw [hcompile, Clause.regexp.injEq] at hpattern
  exact absurd hpattern.2 (by decide)

/-- Between a caret and a dollar sign that are tokens, a pattern keeps the backslashes that it
has, on whichever side the field stands and under a cast. -/
theorem escaped_backslash_kept :
    TextOperand.FieldAndLiteral "idShort.keyword" "^9\\\\$" (.cast (.text "^9\\\\$"))
      (.field "$aas#idShort") ∧
    ¬ Regexp.EndsEscaped "^9\\\\$".toList ∧
    (Formula.textTest .regex [.cast (.text "^9\\\\$"), .field "$aas#idShort"]).compile =
      .regexp "idShort.keyword" "9\\\\" := by
  have hoperands : TextOperand.FieldAndLiteral "idShort.keyword" "^9\\\\$"
      (.cast (.text "^9\\\\$")) (.field "$aas#idShort") := .literalFirst rfl rfl
  have hends : ¬ Regexp.EndsEscaped "^9\\\\$".toList := by
    unfold Regexp.EndsEscaped
    decide
  obtain ⟨pattern, hcompile, hiff, _⟩ := anchors_cut_iff hoperands
  have hpattern : pattern.toList = "9\\\\".toList := hiff.mpr hends
  rw [String.toList_inj] at hpattern
  rw [hpattern] at hcompile
  exact ⟨hoperands, hends, hcompile⟩

end AssetAccess
