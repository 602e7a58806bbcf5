import AssetAccess.Proofs.Document.Respelling
import AssetAccess.Proofs.Json.Reading
import AssetAccess.Proofs.Rule.RoundTrip
set_option autoImplicit false

/-!
# Wire formats

What is written for a value is read back as the value, from its tree and from every text that
spells the tree, as long as the tree is not nested deeper than texts are read
(`WireFormat`).  So what is written for a value that was read, in whatever way it was spelled,
stands for the same value.  The one choice that operands leave, between a bare date and an
operand around it, makes no difference in any place (`ReadsDatesAlike`).
-/

namespace AssetAccess

open Json (Spells maxDepth parse?)

/-- A decoder reads a date alike in both spellings, in trees and in their texts. -/
structure ReadsDatesAlike {α : Type} (decode : Json → Option α) : Prop where
  decode_eq : ∀ v w, Json.Respelled v w → decode v = decode w
  parse_eq : ∀ v w text text', Json.Respelled v w → Spells text v → Spells text' w →
    v.depth ≤ maxDepth → w.depth ≤ maxDepth →
      (parse? text).bind decode = (parse? text').bind decode

/-- An encoder and a decoder belong together. -/
structure WireFormat {α : Type} (encode : α → Json) (decode : Json → Option α) : Prop where
  /-- a value is read back from its tree -/
  decode_encode : ∀ a, decode (encode a) = some a
  /-- a value is read back from the texts of its tree -/
  parse_encode : ∀ a text, Spells text (encode a) → (encode a).depth ≤ maxDepth →
    (parse? text).bind decode = some a
  /-- what is written for a value that was read is read as what it was read from -/
  decode_canonical : ∀ v, ((decode v).map encode).bind decode = decode v
  dates : ReadsDatesAlike decode

section

variable {α : Type} {encode : α → Json} {decode : Json → Option α}

theorem IgnoresSpelling.readsDatesAlike (h : IgnoresSpelling decode) : ReadsDatesAlike decode where
  decode_eq := h
  parse_eq v w _ _ hrespelled htext htext' hdepth hdepth' := by
    rw [htext.parse?_eq_self hdepth, htext'.parse?_eq_self hdepth']
    exact h v w hrespelled

theorem WireFormat.of_decode_encode (h : ∀ a, decode (encode a) = some a)
    (hspelling : IgnoresSpelling decode) : WireFormat encode decode where
  decode_encode := h
  parse_encode a text htext hdepth := by
    rw [htext.parse?_eq_self hdepth]
    exact h a
  decode_canonical v := by
    cases hv : decode v with
    | none => rfl
    | some a => exact h a
  dates := hspelling.readsDatesAlike

end

/-- Operands, attributes, formulas, queries and rules have wire formats, and dates are read alike
in rule documents as well. -/
theorem wire_formats :
    WireFormat Operand.encode Operand.decode? ∧
    WireFormat TextOperand.encode TextOperand.decode? ∧
    WireFormat Attribute.encode Attribute.decode? ∧
    WireFormat Formula.encode Formula.decode? ∧
    WireFormat Query.encode Query.decode? ∧
    WireFormat Rule.encode Rule.decode? ∧
    ReadsDatesAlike Document.decode? := by
  refine ⟨?_, ?_, ?_, ?_, ?_, ?_, Document.ignoresSpelling.readsDatesAlike⟩
  · exact .of_decode_encode Operand.decode?_encode Operand.ignoresSpelling
  · exact .of_decode_encode TextOperand.decode?_encode TextOperand.ignoresSpelling
  · exact .of_decode_encode Attribute.decode?_encode Attribute.ignoresSpelling
  · exact .of_decode_encode Formula.decode?_encode Formula.ignoresSpelling
  · exact .of_decode_encode Query.decode?_encode Query.ignoresSpelling
  · exact .of_decode_encode Rule.decode?_encode Rule.ignoresSpelling

/-! ## A Sunday -/

/-- A Sunday, a quarter of a second after noon in a zone behind UTC. -/
def sundayNoon : Timestamp where
  date := ⟨2024, 6, 30, by decide⟩
  time := ⟨12, 0, 0, by decide⟩
  nanosecond := 250000000
  offset := ⟨-210, by decide⟩
  nanosecond_lt := by decide

/-- A text that asks for the weekday of an operand, which is the Sunday. -/
def sundayOperand : String :=
  "\x7b\"$dayOfWeek\": \x7b\"$dateTimeVal\": \"2024-06-30T12:00:00.25-03:30\"\x7d\x7d"

/-- A text that asks for the weekday of the Sunday itself. -/
def bareSunday : String := "\x7b\"$dayOfWeek\": \"2024-06-30T12:00:00.25-03:30\"\x7d"

/-- The Sunday as an operand is read from both spellings of its date. -/
theorem sunday_read_from_both_spellings :
    (parse? sundayOperand).bind Operand.decode? =
      some (.datePart .dayOfWeek (.dateTime sundayNoon)) ∧
    (parse? bareSunday).bind Operand.decode? =
      some (.datePart .dayOfWeek (.dateTime sundayNoon)) := by
  obtain ⟨hoperands, _⟩ := wire_formats
  have hown := hoperands.parse_encode (.datePart .dayOfWeek (.dateTime sundayNoon)) sundayOperand
    rfl (by decide)
  have hsame := hoperands.dates.parse_eq _ _ bareSunday sundayOperand
    (.here .dayOfWeek "2024-06-30T12:00:00.25-03:30") rfl rfl (by decide) (by decide)
  exact ⟨hown, hsame.trans hown⟩

end AssetAccess
