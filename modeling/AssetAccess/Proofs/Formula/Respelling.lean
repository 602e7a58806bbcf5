import AssetAccess.Formula.Wire
import Mathlib.Data.List.Forall2
import Mathlib.Data.Option.Basic
set_option autoImplicit false

/-!
# Two spellings of a date

Where a part of a date is taken, the timestamp may stand as a bare text or as an operand of its
own.  A tree is respelled by putting one bare text, at any place, into an operand
(`Json.Respelled`).  No decoder tells the two trees apart, whatever the text is: it reads both
as the same value, or neither (`IgnoresSpelling`).

The lemmas follow the shapes that wire forms are made of: leaves, variants, lists and records.
-/

namespace AssetAccess

open Json (keyed)

/-- One tree is the other one with a bare text under a date part put into an operand. -/
inductive Json.Respelled : Json → Json → Prop where
  | here (p : DatePart) (text : String) :
      Respelled (keyed p.key (.string text)) (keyed p.key (keyed "$dateTimeVal" (.string text)))
  | item {v w : Json} (before after : List Json) : Respelled v w →
      Respelled (.array (before ++ v :: after)) (.array (before ++ w :: after))
  | member {v w : Json} (before : List (String × Json)) (key : String)
      (after : List (String × Json)) : Respelled v w →
      Respelled (.object (before ++ (key, v) :: after)) (.object (before ++ (key, w) :: after))

/-- A decoder reads respelled trees alike. -/
def IgnoresSpelling {α : Type} (decode : Json → Option α) : Prop :=
  ∀ v w, Json.Respelled v w → decode v = decode w

namespace Json

/-! ## Leaves -/

namespace Respelled

variable {v w : Json}

/-- Respelled trees are containers. -/
theorem containers (h : Respelled v w) :
    (∃ items items', v = .array items ∧ w = .array items') ∨
      ∃ members members', v = .object members ∧ w = .object members' := by
  cases h with
  | here => exact .inr ⟨_, _, rfl, rfl⟩
  | item => exact .inl ⟨_, _, rfl, rfl⟩
  | member => exact .inr ⟨_, _, rfl, rfl⟩

/-- What has a value for no container has none for respelled trees. -/
theorem eq_none {α : Type} {decode : Json → Option α}
    (harray : ∀ items, decode (.array items) = none)
    (hobject : ∀ members, decode (.object members) = none) (h : Respelled v w) :
    decode v = none ∧ decode w = none := by
  rcases h.containers with ⟨items, items', rfl, rfl⟩ | ⟨members, members', rfl, rfl⟩
  · exact ⟨harray items, harray items'⟩
  · exact ⟨hobject members, hobject members'⟩

theorem string?_eq_none (h : Respelled v w) : v.string? = none ∧ w.string? = none :=
  h.eq_none (fun _ => rfl) fun _ => rfl

theorem bool?_eq_none (h : Respelled v w) : v.bool? = none ∧ w.bool? = none :=
  h.eq_none (fun _ => rfl) fun _ => rfl

theorem finite?_eq_none (h : Respelled v w) : v.finite? = none ∧ w.finite? = none :=
  h.eq_none (fun _ => rfl) fun _ => rfl

theorem timestamp?_eq_none (h : Respelled v w) :
    Timestamp.decode? v = none ∧ Timestamp.decode? w = none :=
  h.eq_none (fun _ => rfl) fun _ => rfl

theorem ne_null (h : Respelled v w) : v ≠ .null ∧ w ≠ .null := by
  rcases h.containers with ⟨items, items', rfl, rfl⟩ | ⟨members, members', rfl, rfl⟩
  · exact ⟨nofun, nofun⟩
  · exact ⟨nofun, nofun⟩

/-! ## Variants -/

/-- The induction for variants, which are objects with a single member: an object with several
members is a case of its own, in which nothing more is known. -/
@[elab_as_elim]
theorem variants {motive : ∀ {x y : Json}, Respelled x y → Prop}
    (here : ∀ p text, motive (.here p text))
    (item : ∀ {x y} before after (h : Respelled x y), motive h → motive (.item before after h))
    (single : ∀ {x y} key (h : Respelled x y), motive h → motive (.member [] key [] h))
    (several : ∀ m n rest m' n' rest'
      (h : Respelled (.object (m :: n :: rest)) (.object (m' :: n' :: rest'))), motive h)
    (h : Respelled v w) : motive h := by
  induction h with
  | here p text => exact here p text
  | item before after hinner ih => exact item before after hinner ih
  | member before key after hinner ih =>
      cases before with
      | nil =>
          cases after with
          | nil => exact single key hinner ih
          | cons m after => exact several _ _ _ _ _ _ (.member [] key (m :: after) hinner)
      | cons m before =>
          cases before with
          | nil => exact several _ _ _ _ _ _ (.member [m] key after hinner)
          | cons n before => exact several _ _ _ _ _ _ (.member (m :: n :: before) key after hinner)

theorem name?_object_eq_none {members : List (String × Json)}
    (h : ∀ key, members ≠ [(key, .null)]) : (object members).name? = none := by
  rw [name?.eq_def]
  split
  · rename_i heq
    cases heq
  · rename_i key heq
    cases heq
    exact absurd rfl (h key)
  · rfl

theorem name?_eq_none (h : Respelled v w) : v.name? = none ∧ w.name? = none := by
  induction h using variants with
  | here p text => exact ⟨rfl, rfl⟩
  | item => exact ⟨rfl, rfl⟩
  | single key hinner _ =>
      obtain ⟨hx, hy⟩ := hinner.ne_null
      refine ⟨name?_object_eq_none fun k heq => ?_, name?_object_eq_none fun k heq => ?_⟩
      · cases heq
        exact hx rfl
      · cases heq
        exact hy rfl
  | several => exact ⟨name?_object_eq_none nofun, name?_object_eq_none nofun⟩

/-! ## Lists -/

theorem mapM_congr {α : Type} {decode : Json → Option α} (h : decode v = decode w)
    (before after : List Json) :
    (before ++ v :: after).mapM decode = (before ++ w :: after).mapM decode := by
  induction before with
  | nil => rw [List.nil_append, List.nil_append, List.mapM_cons, List.mapM_cons, h]
  | cons x before ih =>
      rw [List.cons_append, List.cons_append, List.mapM_cons, List.mapM_cons, ih]

end Respelled

theorem ignoresSpelling_string? : IgnoresSpelling string? := by
  intro v w h
  rw [h.string?_eq_none.1, h.string?_eq_none.2]

theorem ignoresSpelling_listOf? {α : Type} {decode : Json → Option α}
    (h : IgnoresSpelling decode) : IgnoresSpelling (listOf? decode) := by
  intro v w hrespelled
  cases hrespelled with
  | here p text => rfl
  | item before after hinner => exact Respelled.mapM_congr (h _ _ hinner) before after
  | member => rfl

/-! ## Records -/

/-- Two slots are the same, or hold respelled trees. -/
inductive Slot.Respelled : Slot → Slot → Prop where
  | same (s : Slot) : Slot.Respelled s s
  | given {v w : Json} : Json.Respelled v w → Slot.Respelled (.given v) (.given w)

namespace Slot.Respelled

variable {α : Type} {decode : Json → Option α} {s t : Slot}

theorem required (h : IgnoresSpelling decode) (hst : Slot.Respelled s t) :
    s.required decode = t.required decode := by
  cases hst with
  | same => rfl
  | given hvw => exact h _ _ hvw

theorem defaulted (h : IgnoresSpelling decode) (default : α) (hst : Slot.Respelled s t) :
    s.defaulted decode default = t.defaulted decode default := by
  cases hst with
  | same => rfl
  | given hvw => exact h _ _ hvw

theorem optional (h : IgnoresSpelling decode) (hst : Slot.Respelled s t) :
    s.optional decode = t.optional decode := by
  cases hst with
  | same => rfl
  | given hvw =>
      have hdecode := h _ _ hvw
      rcases hvw.containers with ⟨items, items', rfl, rfl⟩ | ⟨members, members', rfl, rfl⟩
      · exact congrArg (Option.map some) hdecode
      · exact congrArg (Option.map some) hdecode

theorem omissible (h : IgnoresSpelling decode) (hst : Slot.Respelled s t) :
    s.omissible decode = t.omissible decode := by
  cases hst with
  | same => rfl
  | given hvw =>
      have hdecode := h _ _ hvw
      rcases hvw.containers with ⟨items, items', rfl, rfl⟩ | ⟨members, members', rfl, rfl⟩
      · exact congrArg (Option.map some) hdecode
      · exact congrArg (Option.map some) hdecode

end Slot.Respelled

/-- The slots of respelled records correspond. -/
abbrev SlotsRespelled : Option (List Slot) → Option (List Slot) → Prop :=
  Option.Rel (List.Forall₂ Slot.Respelled)

theorem SlotsRespelled.refl (slots : Option (List Slot)) : SlotsRespelled slots slots := by
  cases slots with
  | none => exact .none
  | some ss => exact .some (List.forall₂_same.mpr fun s _ => .same s)

theorem SlotsRespelled.cons {s t : Slot} {ss ts : Option (List Slot)} (hst : Slot.Respelled s t)
    (h : SlotsRespelled ss ts) : SlotsRespelled (ss.map (s :: ·)) (ts.map (t :: ·)) := by
  cases h with
  | none => exact .none
  | some h => exact .some (.cons hst h)

/-- The slot for the values under one name. -/
def slotOf? : List Json → Option Slot
  | [] => some .absent
  | [v] => some (.given v)
  | _ :: _ :: _ => none

theorem objectSlots?_cons (members : List (String × Json)) (name : String) (names : List String) :
    objectSlots? members (name :: names) =
      (slotOf? (valuesOf name members)).bind fun slot =>
        (objectSlots? members names).map (slot :: ·) := by
  rw [objectSlots?]
  cases valuesOf name members with
  | nil => cases objectSlots? members names <;> rfl
  | cons v values =>
      cases values with
      | nil => cases objectSlots? members names <;> rfl
      | cons w values => rfl

theorem valuesOf_append_cons (name key : String) (before after : List (String × Json)) (v : Json) :
    valuesOf name (before ++ (key, v) :: after) =
      valuesOf name before ++ ((if key = name then [v] else []) ++ valuesOf name after) := by
  by_cases h : key = name
  · simp [valuesOf, h]
  · simp [valuesOf, h]

namespace Respelled

variable {v w : Json}

theorem arraySlots? (h : Respelled v w) (before after : List Json) (names : List String) :
    SlotsRespelled (Json.arraySlots? (before ++ v :: after) names)
      (Json.arraySlots? (before ++ w :: after) names) := by
  induction before generalizing names with
  | nil =>
      cases names with
      | nil => exact .none
      | cons name names => exact .cons (.given h) (.refl _)
  | cons x before ih =>
      cases names with
      | nil => exact .none
      | cons name names => exact .cons (.same _) (ih names)

/-- If the respelled value is the only one under a name, it is in the slot, and else there is no
slot. -/
theorem slotOf? (h : Respelled v w) (before after : List Json) :
    Option.Rel Slot.Respelled (Json.slotOf? (before ++ v :: after))
      (Json.slotOf? (before ++ w :: after)) := by
  cases before with
  | nil =>
      cases after with
      | nil => exact .some (.given h)
      | cons x after => exact .none
  | cons x before =>
      cases before with
      | nil => exact .none
      | cons y before => exact .none

theorem objectSlots? (h : Respelled v w) (before : List (String × Json)) (key : String)
    (after : List (String × Json)) (names : List String) :
    SlotsRespelled (Json.objectSlots? (before ++ (key, v) :: after) names)
      (Json.objectSlots? (before ++ (key, w) :: after) names) := by
  induction names with
  | nil => exact .some .nil
  | cons name names ih =>
      rw [objectSlots?_cons, objectSlots?_cons, valuesOf_append_cons, valuesOf_append_cons]
      by_cases hkey : key = name
      · rw [if_pos hkey, if_pos hkey, List.singleton_append, List.singleton_append]
        have hslot := h.slotOf? (valuesOf name before) (valuesOf name after)
        generalize Json.slotOf? (valuesOf name before ++ v :: valuesOf name after) = slot
          at hslot ⊢
        generalize Json.slotOf? (valuesOf name before ++ w :: valuesOf name after) = slot'
          at hslot ⊢
        cases hslot with
        | none => exact .none
        | some hst => exact .cons hst ih
      · rw [if_neg hkey, if_neg hkey]
        cases Json.slotOf? (valuesOf name before ++ ([] ++ valuesOf name after)) with
        | none => exact .none
        | some slot => exact .cons (.same slot) ih

/-- Records whose field names are no date parts have corresponding slots. -/
theorem slots? (h : Respelled v w) (names : List String)
    (hnames : ∀ p : DatePart, p.key ∉ names) :
    SlotsRespelled (v.slots? names) (w.slots? names) := by
  cases h with
  | here p text =>
      have hvalues (x : Json) : ∀ name ∈ names, valuesOf name [(p.key, x)] = [] := by
        intro name hname
        have hne : ¬ p.key = name := fun heq => hnames p (heq ▸ hname)
        simp [valuesOf, hne]
      have hsame (x y : Json) :
          Json.objectSlots? [(p.key, x)] names = Json.objectSlots? [(p.key, y)] names := by
        clear hnames
        induction names with
        | nil => rfl
        | cons name names ih =>
            have hrest : ∀ x, ∀ name ∈ names, valuesOf name [(p.key, x)] = [] :=
              fun x n hn => hvalues x n (List.mem_cons_of_mem name hn)
            rw [objectSlots?_cons, objectSlots?_cons, hvalues x name List.mem_cons_self,
              hvalues y name List.mem_cons_self, ih hrest]
      have hslots : (keyed p.key (.string text)).slots? names =
          (keyed p.key (keyed "$dateTimeVal" (.string text))).slots? names := hsame _ _
      rw [hslots]
      exact .refl _
  | item before after hinner => exact hinner.arraySlots? before after names
  | member before key after hinner => exact hinner.objectSlots? before key after names

end Respelled

/-- A record is read alike if its slots are. -/
theorem ignoresSpelling_of_slots {α : Type} {names : List String}
    (hnames : ∀ p : DatePart, p.key ∉ names) {read : List Slot → Option α}
    (hread : ∀ ss ts, List.Forall₂ Slot.Respelled ss ts → read ss = read ts) :
    IgnoresSpelling fun v => (v.slots? names).bind read := by
  intro v w h
  have hslots := h.slots? names hnames
  dsimp only
  generalize v.slots? names = slots at hslots ⊢
  generalize w.slots? names = slots' at hslots ⊢
  cases hslots with
  | none => rfl
  | some hall => exact hread _ _ hall

end Json

/-! ## Formulas -/

theorem Attribute.ignoresSpelling : IgnoresSpelling Attribute.decode? := by
  intro v w h
  induction h using Json.Respelled.variants with
  | here p text => cases p <;> rfl
  | item => rfl
  | single key hinner _ =>
      change decode? (.object [(key, _)]) = decode? (.object [(key, _)])
      rw [decode?, decode?, hinner.string?_eq_none.1, hinner.string?_eq_none.2,
        hinner.name?_eq_none.1, hinner.name?_eq_none.2]
  | several => rfl

namespace Operand

theorem decodeLeaf?_respelled {v w : Json} (h : v.Respelled w) (key : String) :
    decodeLeaf? key v = decodeLeaf? key w := by
  rw [decodeLeaf?, decodeLeaf?, h.string?_eq_none.1, h.string?_eq_none.2,
    h.finite?_eq_none.1, h.finite?_eq_none.2, h.bool?_eq_none.1, h.bool?_eq_none.2,
    h.timestamp?_eq_none.1, h.timestamp?_eq_none.2, Attribute.ignoresSpelling v w h]

/-- A date part reads its bare text and the operand around this text as the same. -/
theorem decode?_here (p : DatePart) (text : String) :
    decode? (keyed p.key (.string text)) =
      decode? (keyed p.key (keyed "$dateTimeVal" (.string text))) := by
  have hoperand : decode? (keyed "$dateTimeVal" (.string text)) =
      (Timestamp.decode? (.string text)).map .dateTime := rfl
  have hobject : Timestamp.decode? (keyed "$dateTimeVal" (.string text)) = none := rfl
  have htext : decode? (.string text) = none := rfl
  rw [keyed, keyed, decode?, decode?, DatePart.ofKey?_key]
  dsimp only
  rw [hobject, hoperand, htext]
  cases Timestamp.decode? (.string text) <;> rfl

theorem ignoresSpelling : IgnoresSpelling decode? := by
  intro v w h
  induction h using Json.Respelled.variants with
  | here p text => exact decode?_here p text
  | item => rfl
  | single key hinner ih =>
      change decode? (.object [(key, _)]) = decode? (.object [(key, _)])
      rw [decode?, decode?, hinner.timestamp?_eq_none.1, hinner.timestamp?_eq_none.2, ih,
        decodeLeaf?_respelled hinner key]
  | several => rfl

end Operand

theorem TextOperand.ignoresSpelling : IgnoresSpelling TextOperand.decode? := by
  intro v w h
  induction h using Json.Respelled.variants with
  | here p text => cases p <;> rfl
  | item => rfl
  | single key hinner _ =>
      change decode? (.object [(key, _)]) = decode? (.object [(key, _)])
      rw [decode?, decode?, hinner.string?_eq_none.1, hinner.string?_eq_none.2,
        Attribute.ignoresSpelling _ _ hinner, Operand.ignoresSpelling _ _ hinner]
  | several => rfl

namespace Formula

theorem decodeAll?_eq_mapM (vs : List Json) : decodeAll? vs = vs.mapM decode? := by
  induction vs with
  | nil => rfl
  | cons v vs ih =>
      rw [decodeAll?, List.mapM_cons, ih]
      cases decode? v with
      | none => rfl
      | some f => cases vs.mapM decode? <;> rfl

theorem decodeLeaf?_respelled {v w : Json} (h : v.Respelled w) (key : String) :
    decodeLeaf? key v = decodeLeaf? key w := by
  rw [decodeLeaf?, decodeLeaf?, Json.ignoresSpelling_listOf? Operand.ignoresSpelling v w h,
    Json.ignoresSpelling_listOf? TextOperand.ignoresSpelling v w h,
    h.bool?_eq_none.1, h.bool?_eq_none.2]

/-- A tree and its respelling are the same formula and the same list of formulas. -/
theorem decode?_and_decodeList?_respelled {v w : Json} (h : v.Respelled w) :
    decode? v = decode? w ∧ decodeList? v = decodeList? w := by
  induction h using Json.Respelled.variants with
  | here p text => exact ⟨by cases p <;> rfl, rfl⟩
  | item before after hinner ih =>
      refine ⟨rfl, ?_⟩
      rw [decodeList?, decodeList?, decodeAll?_eq_mapM, decodeAll?_eq_mapM]
      exact Json.Respelled.mapM_congr ih.1 before after
  | single key hinner ih =>
      refine ⟨?_, rfl⟩
      change decode? (.object [(key, _)]) = decode? (.object [(key, _)])
      rw [decode?, decode?, ih.1, ih.2, decodeLeaf?_respelled hinner key]
  | several => exact ⟨rfl, rfl⟩

theorem ignoresSpelling : IgnoresSpelling decode? :=
  fun _ _ h => (decode?_and_decodeList?_respelled h).1

end Formula

theorem Query.ignoresSpelling : IgnoresSpelling Query.decode? := by
  refine Json.ignoresSpelling_of_slots (by intro p; cases p <;> decide) ?_
  intro ss ts h
  rcases h with _ | ⟨hselect, _ | ⟨hcondition, _ | _⟩⟩
  · rfl
  · rfl
  · dsimp only
    rw [hselect.omissible Json.ignoresSpelling_string?,
      hcondition.omissible Formula.ignoresSpelling]
  · rfl

end AssetAccess
