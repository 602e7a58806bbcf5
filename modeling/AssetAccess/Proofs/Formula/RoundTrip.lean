import AssetAccess.Formula.Wire
import AssetAccess.Proofs.Calendar.RoundTrip
import AssetAccess.Proofs.Formula.Leaves
set_option autoImplicit false

/-!
# Formulas read back

The wire form of an operand, a formula or a query is read as the value it was written for
(`decode?_encode`).  The keys of the kinds are apart, so a key leads to the one branch of the
decoder that reads its kind; for operands and formulas that is an induction over the tree.
-/

namespace AssetAccess

namespace Json

variable {α β : Type} {encode : α → Json}

/-- What is read from each of some values is read from their list. -/
theorem listOf?_map_map {decode : Json → Option β} {g : α → β}
    (h : ∀ a, decode (encode a) = some (g a)) (as : List α) :
    listOf? decode (.array (as.map encode)) = some (as.map g) := by
  rw [listOf?]
  induction as with
  | nil => rfl
  | cons a as ih =>
      rw [List.map_cons, List.mapM_cons, h, ih]
      rfl

/-- Values that are read back one by one are read back as a list. -/
theorem listOf?_map {decode : Json → Option α} (h : ∀ a, decode (encode a) = some a)
    (as : List α) : listOf? decode (.array (as.map encode)) = some as := by
  have hall := listOf?_map_map (g := id) h as
  rw [List.map_id] at hall
  exact hall

/-- A value that is not null is read where it may be missing. -/
theorem Slot.optional_given {decode : Json → Option α} {v : Json} {a : α} (hv : v ≠ .null)
    (h : decode v = some a) : (Slot.given v).optional decode = some (some a) := by
  rw [optional, h]
  · rfl
  · exact hv

theorem Slot.omissible_given {decode : Json → Option α} {v : Json} {a : α} (hv : v ≠ .null)
    (h : decode v = some a) : (Slot.given v).omissible decode = some (some a) := by
  rw [omissible, h]
  · rfl
  · exact hv

end Json

theorem Timestamp.decode?_encode (t : Timestamp) : decode? t.encode = some t := by
  rw [encode, decode?, String.toList_ofList, read?_write]

namespace Operand

/-- An operand is no bare text. -/
theorem timestamp?_encode (o : Operand) : Timestamp.decode? o.encode = none := by
  cases o <;> rfl

theorem decode?_encode (o : Operand) : decode? o.encode = some o := by
  induction o with
  | field path | text s | number x | boolean b | hex s | time s => rfl
  | dateTime t =>
      have hleaf : decode? (encode (.dateTime t)) =
          (Timestamp.decode? t.encode).map .dateTime := rfl
      rw [hleaf, Timestamp.decode?_encode]
      rfl
  | «attribute» a =>
      have hleaf : decode? (encode (.attribute a)) =
          (Attribute.decode? a.encode).map .attribute := rfl
      rw [hleaf, Attribute.decode?_encode]
      rfl
  | datePart p o ih =>
      rw [encode, Json.keyed, decode?, DatePart.ofKey?_key]
      dsimp only
      rw [timestamp?_encode, ih]
      rfl
  | cast c o ih =>
      have hpart : DatePart.ofKey? c.key = none := by cases c <;> rfl
      rw [encode, Json.keyed, decode?, hpart, CastType.ofKey?_key]
      dsimp only
      rw [ih]
      rfl

end Operand

namespace TextOperand

theorem decode?_encode (o : TextOperand) : decode? o.encode = some o := by
  cases o with
  | field path | text s => rfl
  | «attribute» a =>
      have hkey : decode? (encode (.attribute a)) =
          (Attribute.decode? a.encode).map .attribute := rfl
      rw [hkey, Attribute.decode?_encode]
      rfl
  | cast o =>
      have hkey : decode? (encode (.cast o)) = (Operand.decode? o.encode).map .cast := rfl
      rw [hkey, Operand.decode?_encode]
      rfl

end TextOperand

namespace Formula

theorem decodeAll?_encodeAll {fs : List Formula} (h : ∀ f ∈ fs, decode? f.encode = some f) :
    decodeAll? (encodeAll fs) = some fs := by
  induction fs with
  | nil => rfl
  | cons f fs ih =>
      rw [encodeAll, decodeAll?, h f List.mem_cons_self]
      dsimp only
      rw [ih fun g hg => h g (List.mem_cons_of_mem f hg)]
      rfl

theorem decode?_encode (f : Formula) : decode? f.encode = some f := by
  induction f with
  | allOf parts ih =>
      have hkey : decode? (encode (.allOf parts)) =
          (decodeAll? (encodeAll parts)).map .allOf := rfl
      rw [hkey, decodeAll?_encodeAll ih]
      rfl
  | anyOf parts ih =>
      have hkey : decode? (encode (.anyOf parts)) =
          (decodeAll? (encodeAll parts)).map .anyOf := rfl
      rw [hkey, decodeAll?_encodeAll ih]
      rfl
  | matchOf parts ih =>
      have hkey : decode? (encode (.matchOf parts)) =
          (decodeAll? (encodeAll parts)).map .matchOf := rfl
      rw [hkey, decodeAll?_encodeAll ih]
      rfl
  | negation part ih =>
      have hkey : decode? (encode (.negation part)) = (decode? part.encode).map .negation := rfl
      rw [hkey, ih]
      rfl
  | comparison op operands =>
      have hkey : decode? (encode (.comparison op operands)) =
          ((Json.array (operands.map Operand.encode)).listOf? Operand.decode?).map
            (.comparison op) := by cases op <;> rfl
      rw [hkey, Json.listOf?_map Operand.decode?_encode]
      rfl
  | textTest op operands =>
      have hkey : decode? (encode (.textTest op operands)) =
          ((Json.array (operands.map TextOperand.encode)).listOf? TextOperand.decode?).map
            (.textTest op) := by cases op <;> rfl
      rw [hkey, Json.listOf?_map TextOperand.decode?_encode]
      rfl
  | constant b => rfl

/-- A formula is not null. -/
theorem encode_ne_null (f : Formula) : f.encode ≠ .null := by
  cases f <;> exact Json.noConfusion

end Formula

namespace Query

theorem decode?_encode (q : Query) : decode? q.encode = some q := by
  obtain ⟨select, condition⟩ := q
  cases condition with
  | none => cases select <;> rfl
  | some f =>
      have hcondition := Json.Slot.omissible_given f.encode_ne_null (Formula.decode?_encode f)
      cases select with
      | none =>
          have hslots : (encode ⟨none, some f⟩).slots? ["$select", "$condition"] =
              some [.absent, .given f.encode] := rfl
          simp only [decode?, hslots, Option.bind_eq_bind, Option.bind_some, hcondition]
          rfl
      | some s =>
          have hslots : (encode ⟨some s, some f⟩).slots? ["$select", "$condition"] =
              some [.given (.string s), .given f.encode] := rfl
          simp only [decode?, hslots, Option.bind_eq_bind, Option.bind_some, hcondition]
          rfl

end Query

end AssetAccess
