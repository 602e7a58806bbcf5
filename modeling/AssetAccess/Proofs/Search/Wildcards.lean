import AssetAccess.Proofs.Search.Conditions
import Mathlib.Data.List.Infix
set_option autoImplicit false

/-!
# Wildcard patterns match literal texts

An index reads a wildcard pattern piece by piece.  A star leaves a gap for any characters, a
question mark a blank for any one character, and a backslash makes the character behind it
stand for itself; every other character stands for itself too.

Behind each backslash of an escaped text stands the character that it was put there for.  So
the pieces of an escaped text are its own characters, whatever stands behind it in a pattern
(`pieces_escape_append`), and the only gaps of a pattern are those that the test leaves.
-/

namespace AssetAccess

namespace Wildcard

/-! ## Reading a pattern -/

/-- A piece of a pattern. -/
inductive Piece where
  /-- any characters, or none -/
  | gap
  /-- any one character -/
  | blank
  /-- this very character -/
  | exact (c : Char)
  deriving DecidableEq

/-- The piece that a character stands for by itself. -/
def Piece.ofChar (c : Char) : Piece :=
  if c = '*' then .gap else if c = '?' then .blank else .exact c

/-- The pieces of a pattern.  A backslash with nothing behind it stands for itself. -/
def pieces : List Char → List Piece
  | [] => []
  | [c] => [.ofChar c]
  | c :: d :: p => if c = '\\' then .exact d :: pieces p else .ofChar c :: pieces (d :: p)

/-- A text fits some pieces.  What a gap takes up is tried from none of the characters to all of
them. -/
def fits : List Piece → List Char → Bool
  | [], cs => cs.isEmpty
  | .gap :: ps, cs => cs.tails.any (fits ps)
  | .blank :: _, [] => false
  | .blank :: ps, _ :: cs => fits ps cs
  | .exact _ :: _, [] => false
  | .exact c :: ps, d :: cs => decide (c = d) && fits ps cs

theorem pieces_of_ne {c : Char} (hc : c ≠ '\\') (p : List Char) :
    pieces (c :: p) = .ofChar c :: pieces p := by
  cases p with
  | nil => rfl
  | cons d p => rw [pieces, if_neg hc]

/-- In front of any other pattern, an escaped text has its own characters as pieces. -/
theorem pieces_escape_append (v p : List Char) :
    pieces (escape v ++ p) = v.map .exact ++ pieces p := by
  induction v with
  | nil => rfl
  | cons c v ih =>
      unfold escape
      split
      · rw [List.cons_append, List.cons_append, pieces, if_pos rfl, ih]
        rfl
      · rename_i hspecial
        simp only [isSpecial, Bool.or_eq_true, beq_iff_eq, not_or] at hspecial
        obtain ⟨⟨hbackslash, hstar⟩, hmark⟩ := hspecial
        rw [List.cons_append, pieces_of_ne hbackslash, ih, Piece.ofChar, if_neg hstar,
          if_neg hmark]
        rfl

/-! ## What fits -/

theorem fits_gap_iff (ps : List Piece) (cs : List Char) :
    fits (.gap :: ps) cs = true ↔ ∃ rest, rest <:+ cs ∧ fits ps rest = true := by
  rw [fits, List.any_eq_true]
  simp only [List.mem_tails]

/-- A gap at the end takes up whatever is left. -/
theorem fits_gap (cs : List Char) : fits [.gap] cs = true :=
  (fits_gap_iff [] cs).mpr ⟨[], List.nil_suffix, rfl⟩

/-- A text fits pieces that begin with the characters of another text if it begins with that
text, and the rest fits the other pieces. -/
theorem fits_exact_append_iff (v : List Char) (ps : List Piece) (cs : List Char) :
    fits (v.map .exact ++ ps) cs = true ↔ ∃ rest, v ++ rest = cs ∧ fits ps rest = true := by
  induction v generalizing cs with
  | nil => simp
  | cons c v ih =>
      rw [List.map_cons, List.cons_append]
      cases cs with
      | nil => simp [fits]
      | cons d cs =>
          rw [fits, Bool.and_eq_true, decide_eq_true_eq, ih]
          constructor
          · rintro ⟨rfl, rest, rfl, hrest⟩
            exact ⟨rest, rfl, hrest⟩
          · rintro ⟨rest, heq, hrest⟩
            obtain ⟨rfl, rfl⟩ := List.cons.inj heq
            exact ⟨rfl, rest, rfl, hrest⟩

theorem fits_beginning_iff (v cs : List Char) :
    fits (v.map .exact ++ [.gap]) cs = true ↔ v <+: cs := by
  rw [fits_exact_append_iff]
  constructor
  · rintro ⟨rest, heq, _⟩
    exact ⟨rest, heq⟩
  · rintro ⟨rest, heq⟩
    exact ⟨rest, heq, fits_gap rest⟩

theorem fits_ending_iff (v cs : List Char) :
    fits (.gap :: v.map .exact) cs = true ↔ v <:+ cs := by
  rw [fits_gap_iff]
  constructor
  · rintro ⟨rest, hrest, hfits⟩
    rw [← List.append_nil (v.map _), fits_exact_append_iff] at hfits
    obtain ⟨nothing, rfl, hnothing⟩ := hfits
    rw [fits, List.isEmpty_iff] at hnothing
    rwa [hnothing, List.append_nil] at hrest
  · intro hv
    refine ⟨v, hv, ?_⟩
    rw [← List.append_nil (v.map _), fits_exact_append_iff]
    exact ⟨[], List.append_nil v, rfl⟩

theorem fits_holding_iff (v cs : List Char) :
    fits (.gap :: (v.map .exact ++ [.gap])) cs = true ↔ v <:+: cs := by
  rw [fits_gap_iff, List.infix_iff_prefix_suffix]
  simp only [fits_beginning_iff, and_comm]

end Wildcard

/-! ## The pattern of a test -/

namespace TextTest

open Wildcard

/-- What a test leaves open before the text that it looks for. -/
def before : TextTest → List Piece
  | .contains => [.gap]
  | .startsWith => []
  | .endsWith => [.gap]
  | .regex => []

/-- What it leaves open behind that text. -/
def behind : TextTest → List Piece
  | .contains => [.gap]
  | .startsWith => [.gap]
  | .endsWith => []
  | .regex => []

/-- Except for regular expressions, the clause of a test is a wildcard pattern: the characters
of the text, between what the test leaves open. -/
theorem exists_pattern {op : TextTest} (hop : op ≠ .regex) (name value : String) :
    ∃ pattern, op.clause name value = .wildcard name pattern ∧
      pieces pattern.toList = op.before ++ value.toList.map .exact ++ op.behind := by
  cases op with
  | contains =>
      refine ⟨_, rfl, ?_⟩
      rw [String.toList_ofList, holding, List.cons_append, pieces_of_ne (by decide),
        pieces_escape_append]
      rfl
  | startsWith =>
      refine ⟨_, rfl, ?_⟩
      rw [String.toList_ofList, beginning, pieces_escape_append]
      rfl
  | endsWith =>
      refine ⟨_, rfl, ?_⟩
      rw [String.toList_ofList, ending, pieces_of_ne (by decide), ← List.append_nil (escape _),
        pieces_escape_append]
      rfl
  | regex => exact absurd rfl hop

/-- A text fits the characters of another one, between what a test leaves open, exactly when the
test holds of the two. -/
theorem fits_eq_holds {op : TextTest} (hop : op ≠ .regex) (stored value : String) :
    fits (op.before ++ value.toList.map .exact ++ op.behind) stored.toList =
      op.holds stored value := by
  rw [Bool.eq_iff_iff]
  cases op with
  | contains => exact (fits_holding_iff _ _).trans (Text.holds_iff _ _).symm
  | startsWith => exact (fits_beginning_iff _ _).trans (Text.beginsWith_iff _ _).symm
  | endsWith =>
      rw [behind, List.append_nil]
      exact (fits_ending_iff _ _).trans (Text.finishesWith_iff _ _).symm
  | regex => exact absurd rfl hop

/-- On whichever side the field stands, the test is compiled to the clause of its text. -/
theorem compile_field_text {path name : String} (hname : Field.indexName? path = some name)
    (op : TextTest) (value : String) :
    (Formula.textTest op [.field path, .text value]).compile = op.clause name value ∧
    (Formula.textTest op [.text value, .field path]).compile = op.clause name value :=
  ⟨op.compile_field_literal hname rfl, op.compile_literal_field hname rfl⟩

end TextTest

/-- Wildcard patterns agree with the tests that they stand for.  A search for the values of a
field that hold a text, begin or end with it asks for one pattern, whichever side the field
stands on.  Its pieces are the characters of the text and the gaps that the test leaves around
them, so that nothing in the text acts as a wildcard; and a value fits the pattern exactly
when the test holds of that value and the text.  Different texts have different escaped forms. -/
theorem wildcards_literal :
    (∀ (op : TextTest) (path name value : String), op ≠ .regex →
      Field.indexName? path = some name →
      ∃ pattern,
        (Formula.textTest op [.field path, .text value]).compile = .wildcard name pattern ∧
        (Formula.textTest op [.text value, .field path]).compile = .wildcard name pattern ∧
        Wildcard.pieces pattern.toList =
          op.before ++ value.toList.map .exact ++ op.behind ∧
        ∀ stored : String, Wildcard.fits (Wildcard.pieces pattern.toList) stored.toList =
          op.holdsOn [.text stored, .text value]) ∧
    (∀ a b, Wildcard.escape a = Wildcard.escape b → a = b) := by
  constructor
  · intro op path name value hop hname
    obtain ⟨pattern, hclause, hpieces⟩ := op.exists_pattern hop name value
    obtain ⟨hleft, hright⟩ := op.compile_field_text hname value
    refine ⟨pattern, hleft.trans hclause, hright.trans hclause, hpieces, ?_⟩
    intro stored
    rw [hpieces]
    exact op.fits_eq_holds hop stored value
  · intro a b h
    exact Wildcard.escape_injective h

/-- A search for a star and a backslash, at the end of a literal, finds the values that hold
both, one behind the other, and none that holds only the backslash. -/
theorem star_and_backslash_found :
    TextTest.contains ≠ .regex ∧ Field.indexName? "$aas#idShort" = some "idShort.keyword" ∧
    ∃ pattern,
      (Formula.textTest .contains [.field "$aas#idShort", .text "*\\"]).compile =
        .wildcard "idShort.keyword" pattern ∧
      Wildcard.pieces pattern.toList = [.gap, .exact '*', .exact '\\', .gap] ∧
      Wildcard.fits (Wildcard.pieces pattern.toList) "pump*\\1".toList = true ∧
      Wildcard.fits (Wildcard.pieces pattern.toList) "pump\\1".toList = false := by
  have hop : TextTest.contains ≠ .regex := by decide
  have hname : Field.indexName? "$aas#idShort" = some "idShort.keyword" := rfl
  obtain ⟨hpattern, _⟩ := wildcards_literal
  obtain ⟨pattern, hcompile, _, hpieces, hfits⟩ := hpattern .contains _ _ "*\\" hop hname
  refine ⟨hop, hname, pattern, hcompile, hpieces, ?_, ?_⟩
  · rw [hfits]
    rfl
  · rw [hfits]
    rfl

end AssetAccess
