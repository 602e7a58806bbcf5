import AssetAccess.Number.Word
import AssetAccess.Proofs.Text.ByteOrder
import AssetAccess.Search.Clause
set_option autoImplicit false

/-!
# What a clause finds

A clause is asked of one document.  Its leaves are answered by the index, which is all
that is left open here (`Reading`); how the answers are put together is fixed.  Of a
combination every required clause has to match, no excluded one may, and as many optional
ones have to match as are asked for.  Where no number is given, one optional clause is
asked for if nothing is required, and none otherwise.
-/

namespace AssetAccess

/-- The answers of an index to the leaves of a clause, on one document. -/
structure Reading where
  term : String → Scalar → Bool
  range : String → Bound → Scalar → Bool
  wildcard : String → String → Bool
  regexp : String → String → Bool
  present : String → Bool
  script : String → Bool

namespace Bound

/-- A value that stands in an order to the bound lies beyond it. -/
def admits : Bound → Ordering → Bool
  | .gt, o => o.isGT
  | .gte, o => o.isGE
  | .lt, o => o.isLT
  | .lte, o => o.isLE

end Bound

namespace Clause

/-- How many optional clauses have to match. -/
def asked (must should : List Clause) : Option String → Nat
  | some n => (Word.unsigned? n.toList).getD 0
  | none => if must.isEmpty && !should.isEmpty then 1 else 0

mutual

/-- The document matches the clause. -/
def matchedBy (r : Reading) : Clause → Bool
  | .matchAll => true
  | .matchNone => false
  | .term field value => r.term field value
  | .range field bound value => r.range field bound value
  | .wildcard field pattern => r.wildcard field pattern
  | .regexp field pattern => r.regexp field pattern
  | .present field => r.present field
  | .script source => r.script source
  | .combined must should mustNot minimum =>
    (answers r must).all id && !(answers r mustNot).any id &&
      decide (asked must should minimum ≤ (answers r should).count true)

/-- Which clauses the document matches. -/
def answers (r : Reading) : List Clause → List Bool
  | [] => []
  | c :: cs => matchedBy r c :: answers r cs

end

theorem answers_eq_map (r : Reading) (cs : List Clause) :
    answers r cs = cs.map (matchedBy r) := by
  induction cs with
  | nil => rfl
  | cons c cs ih => rw [answers, List.map_cons, ih]

/-! ## The three combinations -/

/-- All of some clauses match. -/
theorem matchedBy_allOf (r : Reading) (cs : List Clause) :
    (allOf cs).matchedBy r = (cs.map (matchedBy r)).all id := by
  have hasked : asked cs [] none = 0 := by simp [asked]
  rw [allOf, matchedBy, hasked, answers_eq_map r cs]
  simp [answers]

/-- One clause is asked for where the number says so. -/
theorem asked_one (must should : List Clause) : asked must should (some "1") = 1 := rfl

/-- A list of answers has one that is true exactly when it counts one. -/
theorem one_le_count_true_iff (bs : List Bool) : 1 ≤ bs.count true ↔ bs.any id = true := by
  rw [List.any_eq_true, Nat.succ_le_iff, List.count_pos_iff]
  simp

/-- One of some clauses matches. -/
theorem matchedBy_anyOf (r : Reading) (cs : List Clause) :
    (anyOf cs).matchedBy r = (cs.map (matchedBy r)).any id := by
  rw [anyOf, matchedBy, asked_one, answers_eq_map r cs, Bool.eq_iff_iff]
  simp only [answers, List.all_nil, List.any_nil, Bool.not_false, Bool.true_and,
    decide_eq_true_eq]
  exact one_le_count_true_iff _

/-- The clause does not match. -/
theorem matchedBy_negated (r : Reading) (c : Clause) :
    (negated c).matchedBy r = !c.matchedBy r := by
  have hasked : asked [] [] none = 0 := rfl
  rw [negated, matchedBy, hasked]
  simp [answers]

end Clause

/-! ## Documents of texts -/

/-- A document whose fields hold texts, by the name of the field in the index. -/
abbrev TextDocument := String → Option String

/-- The index reads a document of texts: a term asks for the very text of a field, and a
range for a text that lies beyond the bound in byte order.  Neither matches a field that
is not there. -/
structure Reading.OfTexts (r : Reading) (document : TextDocument) : Prop where
  term : ∀ field value, r.term field (.text value) = decide (document field = some value)
  range : ∀ field bound value,
    r.range field bound (.text value) =
      (document field).any fun text => bound.admits (Text.byteOrder text value)

end AssetAccess
