import AssetAccess.Proofs.Search.WellFormed
set_option autoImplicit false

/-!
# What an index is sent loses nothing

Two clauses of queries are sent as equal data trees only if they are the same clause
(`index_form_faithful`).  Data trees are equal as values are compared (`Json.Same`): the order of
the members of an object does not count, so neither does the order in which a combination writes
its lists.  Every clause is an object with the kind of the clause as its only key
(`Clause.toJson_eq_keyed`), so equal trees are of one kind, and behind the key the fields, values
and lists of the clause can be read off one by one.  The literals carry no mark of their type.  They
are told apart since a text, an integer, a float and a truth value are different data, and since no
literal is infinite: all infinities would be sent as null.
-/

namespace AssetAccess

namespace Json

/-- The data trees are equal: their scalars are, integers and floats being different numbers and
so the two zeros, their items one by one, and their members key by key. -/
inductive Same : Json → Json → Prop where
  | refl (v : Json) : Same v v
  | array {vs ws : List Json} :
      (∀ i : Nat, Option.Rel Same vs[i]? ws[i]?) → Same (.array vs) (.array ws)
  | object {ms ns : List (String × Json)} :
      (∀ key, Option.Rel Same (Table.last? key ms) (Table.last? key ns)) →
      Same (.object ms) (.object ns)

namespace Same

theorem rel_refl (found : Option Json) : Option.Rel Same found found := by
  cases found with
  | none => exact .none
  | some v => exact .some (.refl v)

theorem items {vs ws : List Json} (h : Same (.array vs) (.array ws)) (i : Nat) :
    Option.Rel Same vs[i]? ws[i]? := by
  cases h with
  | refl => exact rel_refl _
  | array hitems => exact hitems i

theorem members {ms ns : List (String × Json)} (h : Same (.object ms) (.object ns))
    (key : String) : Option.Rel Same (Table.last? key ms) (Table.last? key ns) := by
  cases h with
  | refl => exact rel_refl _
  | object hmembers => exact hmembers key

theorem string_inj {s t : String} (h : Same (.string s) (.string t)) : s = t := by
  cases h
  rfl

/-- Things that are encoded alike are the same, if that holds of each of them. -/
theorem eq_of_rel_map {α : Type} {encode : α → Json} {found found' : Option α}
    (hinj : ∀ a, found = some a → ∀ b, found' = some b → Same (encode a) (encode b) → a = b)
    (h : Option.Rel Same (found.map encode) (found'.map encode)) : found = found' := by
  cases found with
  | none =>
      cases found' with
      | none => rfl
      | some b => cases h
  | some a =>
      cases found' with
      | none => cases h
      | some b => rw [hinj a rfl b rfl (Option.rel_some_some.mp h)]

/-- Objects with a single member have the same key, and the same value behind it. -/
theorem keyed_inj {key key' : String} {v v' : Json} (h : Same (keyed key v) (keyed key' v')) :
    key = key' ∧ Same v v' := by
  have hmember := h.members key
  by_cases heq : key' = key
  · simp only [Table.last?, heq, if_true] at hmember
    exact ⟨heq.symm, Option.rel_some_some.mp hmember⟩
  · simp only [Table.last?, heq, if_true, if_false] at hmember
    cases hmember

end Same

end Json

namespace Scalar

/-- The literal of a data tree. -/
def ofJson? : Json → Option Scalar
  | .string s => some (.text s)
  | .number (.integer i) => some (.integer i)
  | .number (.float x) => some (.number (.finite x))
  | .bool b => some (.boolean b)
  | _ => none

/-- A finite literal can be read back. -/
theorem ofJson?_toJson {v : Scalar} (h : v.isFinite = true) : ofJson? v.toJson = some v := by
  cases v with
  | number x =>
      cases x with
      | finite x => rfl
      | infinite negative | notANumber => cases h
  | _ => rfl

theorem eq_of_same_toJson {v w : Scalar} (hv : v.isFinite = true) (hw : w.isFinite = true)
    (h : Json.Same v.toJson w.toJson) : v = w := by
  have heq : v.toJson = w.toJson := by
    generalize hleft : v.toJson = left at h
    generalize w.toJson = right at h
    cases h with
    | refl => rfl
    | array => exact absurd hleft (v.toJson_ne_array _)
    | object => exact absurd hleft (v.toJson_ne_object _)
  apply Option.some.inj
  rw [← ofJson?_toJson hv, heq, ofJson?_toJson hw]

/-- Numbers that are not finite would be sent alike. -/
example : (number (.infinite false)).toJson = (number .notANumber).toJson := rfl

end Scalar

theorem Bound.key_inj {b b' : Bound} (h : b.key = b'.key) : b = b' := by
  cases b <;> cases b' <;> simp_all [key]

namespace Clause

/-- The kind of the clause, which is the key that it is sent under. -/
def kind : Clause → String
  | .matchAll => "match_all"
  | .matchNone => "match_none"
  | .term _ _ => "term"
  | .range _ _ _ => "range"
  | .wildcard _ _ => "wildcard"
  | .regexp _ _ => "regexp"
  | .present _ => "exists"
  | .script _ => "script"
  | .combined _ _ _ _ => "bool"

/-- What is sent under the key. -/
def body : Clause → Json
  | .matchAll => .object []
  | .matchNone => .object []
  | .term field value => .keyed field (.keyed "value" value.toJson)
  | .range field bound value => .keyed field (.keyed bound.key value.toJson)
  | .wildcard field pattern => .keyed field (.keyed "value" (.string pattern))
  | .regexp field pattern => .keyed field (.keyed "value" (.string pattern))
  | .present field => .keyed "field" (.string field)
  | .script source =>
    .keyed "script" (.object [("source", .string source), ("lang", .string "painless")])
  | .combined must should mustNot minimum => .object (members must should mustNot minimum)

theorem toJson_eq_keyed (c : Clause) : c.toJson = .keyed c.kind c.body := by
  cases c with
  | combined must should mustNot minimum => exact toJson_combined must should mustNot minimum
  | _ => simp only [toJson, kind, body]

/-! ## The members of a combination -/

theorem last?_listMember (key : String) (items : List Json) :
    Table.last? key (listMember key items) = if items.isEmpty then none else some (.array items) := by
  cases items <;> simp [listMember, Table.last?]

theorem last?_listMember_of_ne {key other : String} (h : other ≠ key) (items : List Json) :
    Table.last? key (listMember other items) = none := by
  cases items <;> simp [listMember, Table.last?, h]

section Members

variable (must should mustNot : List Clause) (minimum : Option String)

theorem last?_must : Table.last? "must" (members must should mustNot minimum) =
    Table.last? "must" (listMember "must" (must.map toJson)) := by
  cases minimum <;> simp [members, Table.last?_append, last?_listMember_of_ne, Table.last?]

theorem last?_should : Table.last? "should" (members must should mustNot minimum) =
    Table.last? "should" (listMember "should" (should.map toJson)) := by
  cases minimum <;> simp [members, Table.last?_append, last?_listMember_of_ne, Table.last?]

theorem last?_mustNot : Table.last? "must_not" (members must should mustNot minimum) =
    Table.last? "must_not" (listMember "must_not" (mustNot.map toJson)) := by
  cases minimum <;> simp [members, Table.last?_append, last?_listMember_of_ne, Table.last?]

theorem last?_minimum :
    Table.last? "minimum_should_match" (members must should mustNot minimum) =
      minimum.map Json.string := by
  cases minimum <;> simp [members, Table.last?_append, last?_listMember_of_ne, Table.last?]

end Members

/-- Lists of clauses are the same, if they are sent alike and none of their clauses is sent as
another one. -/
theorem eq_of_rel_listMember {key : String} {cs cs' : List Clause}
    (hinj : ∀ c ∈ cs, ∀ c' ∈ cs', Json.Same c.toJson c'.toJson → c = c')
    (h : Option.Rel Json.Same (Table.last? key (listMember key (cs.map toJson)))
      (Table.last? key (listMember key (cs'.map toJson)))) : cs = cs' := by
  have hitems : Json.Same (.array (cs.map toJson)) (.array (cs'.map toJson)) := by
    rw [last?_listMember, last?_listMember] at h
    cases cs with
    | nil =>
        cases cs' with
        | nil => exact .refl _
        | cons => cases h
    | cons =>
        cases cs' with
        | nil => cases h
        | cons => exact Option.rel_some_some.mp h
  apply List.ext_getElem?
  intro i
  have hi := hitems.items i
  rw [List.getElem?_map, List.getElem?_map] at hi
  exact Json.Same.eq_of_rel_map (fun c hc c' hc' =>
    hinj c (List.mem_of_getElem? hc) c' (List.mem_of_getElem? hc')) hi

/-- Combinations are the same, if they are sent alike and none of their clauses is sent as
another one. -/
theorem combined_eq_of_same {must should mustNot must' should' mustNot' : List Clause}
    {minimum minimum' : Option String}
    (hinj : ∀ c ∈ (combined must should mustNot minimum).children,
      ∀ c' ∈ (combined must' should' mustNot' minimum').children,
        Json.Same c.toJson c'.toJson → c = c')
    (h : Json.Same (.object (members must should mustNot minimum))
      (.object (members must' should' mustNot' minimum'))) :
    combined must should mustNot minimum = combined must' should' mustNot' minimum' := by
  simp only [children, List.mem_append] at hinj
  have hmust := h.members "must"
  rw [last?_must, last?_must] at hmust
  have hshould := h.members "should"
  rw [last?_should, last?_should] at hshould
  have hmustNot := h.members "must_not"
  rw [last?_mustNot, last?_mustNot] at hmustNot
  have hminimum := h.members "minimum_should_match"
  rw [last?_minimum, last?_minimum] at hminimum
  congr 1
  · exact eq_of_rel_listMember
      (fun c hc c' hc' => hinj c (.inl (.inl hc)) c' (.inl (.inl hc'))) hmust
  · exact eq_of_rel_listMember
      (fun c hc c' hc' => hinj c (.inl (.inr hc)) c' (.inl (.inr hc'))) hshould
  · exact eq_of_rel_listMember (fun c hc c' hc' => hinj c (.inr hc) c' (.inr hc')) hmustNot
  · exact Json.Same.eq_of_rel_map (fun _ _ _ _ => Json.Same.string_inj) hminimum

/-- A clause is sent as no other one is, if both are well formed. -/
theorem eq_of_same_toJson {paths paths' : List String} {c c' : Clause}
    (h : ∀ part : Clause, part.Occurs c → part.WellFormed paths)
    (h' : ∀ part : Clause, part.Occurs c' → part.WellFormed paths')
    (hsame : Json.Same c.toJson c'.toJson) : c = c' := by
  induction c generalizing c' with
  | step c ih =>
      have hself := h c .here
      have hself' := h' c' .here
      rw [toJson_eq_keyed, toJson_eq_keyed] at hsame
      obtain ⟨hkind, hbody⟩ := hsame.keyed_inj
      cases c with
      | matchAll =>
          cases c' with
          | matchAll => rfl
          | _ => simp [kind] at hkind
      | matchNone =>
          cases c' with
          | matchNone => rfl
          | _ => simp [kind] at hkind
      | term field value =>
          cases c' with
          | term field' value' =>
              obtain ⟨hfield, hvalue⟩ := hbody.keyed_inj
              rw [hfield, Scalar.eq_of_same_toJson hself.2 hself'.2 hvalue.keyed_inj.2]
          | _ => simp [kind] at hkind
      | range field bound value =>
          cases c' with
          | range field' bound' value' =>
              obtain ⟨hfield, hrange⟩ := hbody.keyed_inj
              obtain ⟨hbound, hvalue⟩ := hrange.keyed_inj
              rw [hfield, Bound.key_inj hbound, Scalar.eq_of_same_toJson hself.2 hself'.2 hvalue]
          | _ => simp [kind] at hkind
      | wildcard field pattern =>
          cases c' with
          | wildcard field' pattern' =>
              obtain ⟨hfield, hpattern⟩ := hbody.keyed_inj
              rw [hfield, hpattern.keyed_inj.2.string_inj]
          | _ => simp [kind] at hkind
      | regexp field pattern =>
          cases c' with
          | regexp field' pattern' =>
              obtain ⟨hfield, hpattern⟩ := hbody.keyed_inj
              rw [hfield, hpattern.keyed_inj.2.string_inj]
          | _ => simp [kind] at hkind
      | present field =>
          cases c' with
          | present field' => rw [hbody.keyed_inj.2.string_inj]
          | _ => simp [kind] at hkind
      | script source =>
          cases c' with
          | script source' =>
              have hsource := hbody.keyed_inj.2.members "source"
              rw [(Option.rel_some_some.mp hsource).string_inj]
          | _ => simp [kind] at hkind
      | combined must should mustNot minimum =>
          cases c' with
          | combined must' should' mustNot' minimum' =>
              refine combined_eq_of_same (fun child hchild child' hchild' => ?_) hbody
              exact ih child hchild (fun part hpart => h part (.inside hchild hpart))
                fun part hpart => h' part (.inside hchild' hpart)
          | _ => simp [kind] at hkind

end Clause

/-- No two clauses of queries are sent alike. -/
theorem index_form_faithful (q q' : Query) :
    Json.Same q.compile.toJson q'.compile.toJson ↔ q.compile = q'.compile := by
  constructor
  · exact Clause.eq_of_same_toJson q.wellFormed_compile q'.wellFormed_compile
  · intro heq
    rw [heq]
    exact .refl _

/-- Whatever is of a year or later. -/
def sinceQuery (year : Operand) : Query where
  select := none
  condition := some (.comparison .ge [.field "$sme#year", year])

/-- The same with the year in front of the field. -/
def untilQuery (year : Operand) : Query where
  select := none
  condition := some (.comparison .le [year, .field "$sme#year"])

/-- The year of a date, which is an integer, is told apart from the number that it is cast to.
The side that the year stands on cannot be told. -/
theorem year_told_from_number :
    ¬ Json.Same (sinceQuery (.datePart .year (.text "2024-06-02T12:00:00+02:00"))).compile.toJson
      (sinceQuery yearNumber).compile.toJson ∧
    Json.Same (sinceQuery yearNumber).compile.toJson (untilQuery yearNumber).compile.toJson := by
  have hinteger : (sinceQuery (.datePart .year (.text "2024-06-02T12:00:00+02:00"))).compile =
      .range "year" .gte (.integer 2024) :=
    Comparison.ge.compile_field_literal rfl literal?_year
  have hnumber : (sinceQuery yearNumber).compile = .range "year" .gte yearLiteral :=
    Comparison.ge.compile_field_literal rfl literal?_yearNumber
  have hmirrored : (untilQuery yearNumber).compile = .range "year" .gte yearLiteral :=
    Comparison.le.compile_literal_field rfl literal?_yearNumber
  refine ⟨fun hsame => ?_, (index_form_faithful _ _).mpr (hnumber.trans hmirrored.symm)⟩
  have hequal := (index_form_faithful _ _).mp hsame
  rw [hinteger, hnumber, Clause.range.injEq] at hequal
  cases hequal.2.2

end AssetAccess
