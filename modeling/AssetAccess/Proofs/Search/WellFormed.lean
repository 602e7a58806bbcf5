import AssetAccess.Proofs.Formula.Casts
import AssetAccess.Proofs.Number.Integers
import AssetAccess.Proofs.Search.Quoting
set_option autoImplicit false

/-!
# Well-formed clauses

What an index is sent has to mean something to it.  A combination of no clauses would match every
document, and null is no value to look for.  Neither occurs in the clause of a query, at whatever
depth: connectives of nothing are not compiled into combinations, and every literal is finite,
however it is cast (`Operand.isFinite_of_literal?`).  And a clause asks for no other fields than
those that the condition names.
-/

namespace AssetAccess

/-! ## Literals are finite -/

namespace Scalar

/-- The scalar is no infinity, and not what is no number. -/
def isFinite : Scalar → Bool
  | .number x => x.isFinite
  | _ => true

theorem isFinite_of_kind_ne {v : Scalar} (h : v.kind ≠ .number) : v.isFinite = true := by
  cases v with
  | number x => exact absurd rfl h
  | _ => rfl

/-- A cast keeps scalars finite, if integers have no more than 53 bits. -/
theorem isFinite_of_castTo? {c : CastType} {v w : Scalar} (h : castTo? c v = some w)
    (hfinite : v.isFinite = true)
    (hinteger : ∀ i, v = .integer i → i.natAbs < 9007199254740992) : w.isFinite = true := by
  by_cases hkind : c.kind = .number
  · cases c with
    | number =>
        cases v with
        | text s =>
            obtain ⟨x, hx, rfl⟩ := Option.map_eq_some_iff.mp h
            rw [readNumber?] at hx
            split at hx
            · cases hx
              rfl
            · cases hx
        | number x =>
            cases h
            exact hfinite
        | integer i =>
            cases h
            exact Binary64.isFinite_ofInt (hinteger i rfl)
        | boolean b => cases h
    | _ => cases hkind
  · apply isFinite_of_kind_ne
    rw [kind_of_castTo? h]
    exact hkind

/-- A finite scalar is something in a data tree. -/
theorem toJson_ne_null {v : Scalar} (h : v.isFinite = true) : v.toJson ≠ .null := by
  cases v with
  | number x =>
      cases x with
      | finite x => simp [toJson, Json.ofOption, Binary64.finite?]
      | infinite negative | notANumber => cases h
  | _ => simp [toJson]

end Scalar

/-- The parts of a date are small numbers. -/
theorem DatePart.natAbs_ofDate_lt (p : DatePart) (d : Date) : (p.ofDate d).natAbs < 10000 := by
  have hday := d.day_lt
  have hweekday := d.weekday_bounds.2
  obtain ⟨hyear, _, hmonth, _⟩ := d.valid
  cases p <;> simp only [ofDate] <;> omega

namespace Operand

/-- Only parts of dates are integers. -/
theorem natAbs_lt_of_literal? {o : Operand} {i : Int} (h : o.literal? = some (.integer i)) :
    i.natAbs < 10000 := by
  cases o with
  | datePart p o =>
      obtain ⟨t, _, ht⟩ := Option.map_eq_some_iff.mp h
      cases ht
      exact p.natAbs_ofDate_lt t.date
  | cast c o => exact absurd (kind_of_literal?_cast h).symm c.kind_ne_integer
  | _ => cases h

/-- The literal of an operand is finite, however it is cast. -/
theorem isFinite_of_literal? {o : Operand} {v : Scalar} (h : o.literal? = some v) :
    v.isFinite = true := by
  induction o generalizing v with
  | cast c o ih =>
      rw [literal?_cast] at h
      split at h
      · cases h
        rfl
      · obtain ⟨w, hw, hcast⟩ := Option.bind_eq_some_iff.mp h
        refine Scalar.isFinite_of_castTo? hcast (ih hw) fun i hi => ?_
        rw [hi] at hw
        exact Nat.lt_trans (natAbs_lt_of_literal? hw) (by decide)
  | datePart p o ih =>
      obtain ⟨t, _, rfl⟩ := Option.map_eq_some_iff.mp h
      rfl
  | field path => cases h
  | «attribute» a => cases h
  | _ =>
      cases h
      rfl

end Operand

/-! ## Fields are named -/

/-- The name is that of the field of one of some paths. -/
def Field.NamedBy (paths : List String) (name : String) : Prop :=
  ∃ path ∈ paths, indexName? path = some name

/-- The second name is that of the keyword sub-field under the first one: it ends in the suffix of
such names, which is put behind the first name exactly where that does not end in it itself. -/
structure Field.KeywordOf (name keyword : String) : Prop where
  ends : ∃ base, keyword = base ++ ".keyword"
  kept : (∃ base, name = base ++ ".keyword") → keyword = name
  added : (¬ ∃ base, name = base ++ ".keyword") → keyword = name ++ ".keyword"

theorem Field.keywordOf_keywordName (name : String) : KeywordOf name (keywordName name) where
  ends := exists_keywordName_eq name
  kept hends := if_pos ((finishesWith_keywordSuffix_iff name).mpr hends)
  added hnot := if_neg (mt (finishesWith_keywordSuffix_iff name).mp hnot)

/-- The field that an operand names is one of those that are written in it. -/
theorem Operand.namedBy_fields {o : Operand} {name : String} (h : o.indexName? = some name) :
    Field.NamedBy o.fields name := by
  induction o with
  | field path => exact ⟨path, List.mem_singleton.mpr rfl, h⟩
  | cast c o ih => exact ih h
  | _ => cases h

theorem TextOperand.namedBy_fields {o : TextOperand} {name : String}
    (h : o.indexName? = some name) : Field.NamedBy o.fields name := by
  cases o with
  | field path => exact ⟨path, List.mem_singleton.mpr rfl, h⟩
  | cast o => exact Operand.namedBy_fields h
  | _ => cases h

namespace Formula.IsPartOf

variable {f : Formula} {name : String}

/-- And one of those that are written in a formula of which its comparison is a part. -/
theorem namedBy_operand {op : Comparison} {operands : List Operand} {o : Operand}
    (hpart : (Formula.comparison op operands).IsPartOf f) (ho : o ∈ operands)
    (h : o.indexName? = some name) : Field.NamedBy f.fields name := by
  obtain ⟨path, hpath, hindex⟩ := Operand.namedBy_fields h
  exact ⟨path, hpart.field_mem (List.mem_flatMap.mpr ⟨o, ho, hpath⟩), hindex⟩

theorem namedBy_textOperand {op : TextTest} {operands : List TextOperand} {o : TextOperand}
    (hpart : (Formula.textTest op operands).IsPartOf f) (ho : o ∈ operands)
    (h : o.indexName? = some name) : Field.NamedBy f.fields name := by
  obtain ⟨path, hpath, hindex⟩ := TextOperand.namedBy_fields h
  exact ⟨path, hpart.field_mem (List.mem_flatMap.mpr ⟨o, ho, hpath⟩), hindex⟩

end Formula.IsPartOf

/-! ## Well-formed clauses -/

namespace Clause

/-- The clause is well formed by itself, whatever the clauses in it are.  A combination has
exactly one list with clauses in it.  What must not match is a single clause, and one match is
asked for exactly where the clauses are optional.  A value is finite.  A field is that of one of
the paths, and a field that has to be there is the keyword sub-field of such a field. -/
def WellFormed (paths : List String) : Clause → Prop
  | .matchAll => True
  | .matchNone => True
  | .term field value => Field.NamedBy paths field ∧ value.isFinite = true
  | .range field _ value => Field.NamedBy paths field ∧ value.isFinite = true
  | .wildcard field _ => Field.NamedBy paths field
  | .regexp field _ => Field.NamedBy paths field
  | .present field => ∃ name, Field.NamedBy paths name ∧ Field.KeywordOf name field
  | .script _ => True
  | .combined must should mustNot minimum =>
    [must, should, mustNot].countP (fun clauses => !clauses.isEmpty) = 1 ∧
      mustNot.length ≤ 1 ∧ minimum = if should.isEmpty then none else some "1"

variable {paths : List String}

theorem wellFormed_allOf {clauses : List Clause} (h : clauses ≠ []) :
    (allOf clauses).WellFormed paths := by
  simp [allOf, WellFormed, h]

theorem wellFormed_anyOf {clauses : List Clause} (h : clauses ≠ []) :
    (anyOf clauses).WellFormed paths := by
  simp [anyOf, WellFormed, h]

theorem wellFormed_negated (c : Clause) : (negated c).WellFormed paths := by
  simp [negated, WellFormed]

/-- A clause without clauses in it has nothing in it that is not well formed. -/
theorem WellFormed.throughout {c : Clause} (h : c.WellFormed paths) (hnone : c.children = []) :
    ∀ part : Clause, part.Occurs c → part.WellFormed paths := by
  intro part hpart
  rw [eq_of_occurs hnone hpart]
  exact h

/-- The clause that asks a field for a literal is well formed throughout. -/
theorem wellFormed_comparison {name : String} {v : Scalar} (hname : Field.NamedBy paths name)
    (hfinite : v.isFinite = true) (op : Comparison) :
    ∀ part : Clause, part.Occurs (op.clause name v) → part.WellFormed paths := by
  have hterm : ∀ part : Clause, part.Occurs (.term name v) → part.WellFormed paths :=
    WellFormed.throughout ⟨hname, hfinite⟩ rfl
  cases op with
  | eq => exact hterm
  | ne =>
      apply Formula.forall_occurs_of_children (wellFormed_negated _)
      rw [children_negated, List.forall_mem_singleton]
      exact hterm
  | le | lt | ge | gt => exact WellFormed.throughout ⟨hname, hfinite⟩ rfl

/-- So is the clause that asks a field for a text. -/
theorem wellFormed_textTest {name : String} (hname : Field.NamedBy paths name) (op : TextTest)
    (value : String) : ∀ part : Clause, part.Occurs (op.clause name value) → part.WellFormed paths := by
  cases op with
  | contains | startsWith | endsWith | regex => exact WellFormed.throughout hname rfl

/-- And so is a script behind its guards. -/
theorem wellFormed_guarded {l r source : String} {c : Clause} (hl : Field.NamedBy paths l)
    (hr : Field.NamedBy paths r)
    (h : Script.guarded? (Field.keywordName l) (Field.keywordName r) source = some c) :
    ∀ part : Clause, part.Occurs c → part.WellFormed paths := by
  obtain ⟨_, _, rfl⟩ := Script.guarded?_eq_some h
  apply Formula.forall_occurs_of_children (wellFormed_allOf (List.cons_ne_nil _ _))
  rw [children_allOf, List.forall_mem_cons, List.forall_mem_cons, List.forall_mem_singleton]
  exact ⟨WellFormed.throughout ⟨l, hl, Field.keywordOf_keywordName l⟩ rfl,
    WellFormed.throughout ⟨r, hr, Field.keywordOf_keywordName r⟩ rfl,
    WellFormed.throughout trivial rfl⟩

end Clause

namespace Formula

variable {f : Formula} {c : Clause}

/-- The clause of a leaf is well formed throughout. -/
theorem LeafClause.wellFormed (h : f.LeafClause c) :
    ∀ part : Clause, part.Occurs c → part.WellFormed f.fields := by
  cases h with
  | @comparison op left right hpart hclause =>
      have hleft {name : String} : left.indexName? = some name → Field.NamedBy f.fields name :=
        hpart.namedBy_operand List.mem_cons_self
      have hright {name : String} : right.indexName? = some name → Field.NamedBy f.fields name :=
        hpart.namedBy_operand (List.mem_cons_of_mem left List.mem_cons_self)
      rcases op.clauseOf?_cases hclause with
        ⟨l, r, hl, hr, hscript⟩ | ⟨op', name, v, hsides, rfl⟩
      · exact Clause.wellFormed_guarded (hleft hl) (hright hr) hscript
      · rcases hsides with ⟨hname, hliteral⟩ | ⟨hname, hliteral⟩
        · exact Clause.wellFormed_comparison (hleft hname)
            (Operand.isFinite_of_literal? hliteral) op'
        · exact Clause.wellFormed_comparison (hright hname)
            (Operand.isFinite_of_literal? hliteral) op'
  | @textTest op left right hpart hclause =>
      have hleft {name : String} : left.indexName? = some name → Field.NamedBy f.fields name :=
        hpart.namedBy_textOperand List.mem_cons_self
      have hright {name : String} : right.indexName? = some name → Field.NamedBy f.fields name :=
        hpart.namedBy_textOperand (List.mem_cons_of_mem left List.mem_cons_self)
      rcases op.clauseOf?_cases hclause with
        ⟨l, r, hl, hr, hscript⟩ | ⟨name, value, hsides, rfl⟩
      · rw [Script.textTest?] at hscript
        split at hscript
        · cases hscript
        · exact Clause.wellFormed_guarded (hleft hl) (hright hr) hscript
      · rcases hsides with ⟨hname, _⟩ | ⟨hname, _⟩
        · exact Clause.wellFormed_textTest (hleft hname) op value
        · exact Clause.wellFormed_textTest (hright hname) op value

/-- The clause of a condition is well formed throughout. -/
theorem wellFormed_compile (f : Formula) :
    ∀ part : Clause, part.Occurs f.compile → part.WellFormed f.fields := by
  refine forall_occurs_compile (P := Clause.WellFormed f.fields) trivial trivial ?_ ?_ ?_ f
    fun c hleaf => hleaf.wellFormed
  · intro parts hne
    exact Clause.wellFormed_allOf fun hnil => hne (List.map_eq_nil_iff.mp hnil)
  · intro parts hne
    exact Clause.wellFormed_anyOf fun hnil => hne (List.map_eq_nil_iff.mp hnil)
  · exact fun g => Clause.wellFormed_negated g.compile

end Formula

/-! ## What an index is sent -/

namespace Json

/-- The data trees right below a data tree. -/
def children : Json → List Json
  | .array items => items
  | .object members => members.map Prod.snd
  | _ => []

theorem children_eq_nil {v : Json} (harray : ∀ items, v ≠ .array items)
    (hobject : ∀ members, v ≠ .object members) : v.children = [] := by
  cases v with
  | array items => exact absurd rfl (harray items)
  | object members => exact absurd rfl (hobject members)
  | _ => rfl

/-- The data tree stands in another one, at any depth; it stands in itself. -/
inductive Within (part : Json) : Json → Prop where
  | here : Within part part
  | inside {v child : Json} : child ∈ v.children → Within part child → Within part v

theorem Within.keyed {part v : Json} {key : String} (h : Within part v) :
    Within part (keyed key v) :=
  .inside (List.mem_singleton.mpr rfl) h

/-- The data tree is not null, and holds no combination of nothing. -/
def Meant (v : Json) : Prop :=
  v ≠ .null ∧ ∀ members, v = .object members → ("bool", .object []) ∉ members

/-- The data tree is meant throughout. -/
def MeantThroughout (v : Json) : Prop := ∀ part, Within part v → part.Meant

theorem meantThroughout_of_children {v : Json} (hself : v.Meant)
    (hchildren : ∀ child ∈ v.children, child.MeantThroughout) : v.MeantThroughout := by
  intro part hpart
  cases hpart with
  | here => exact hself
  | inside hchild hinside => exact hchildren _ hchild part hinside

theorem meantThroughout_string (s : String) : (string s).MeantThroughout := by
  refine meantThroughout_of_children ⟨by simp, by simp⟩ ?_
  simp [children]

theorem meantThroughout_array {items : List Json} (h : ∀ v ∈ items, v.MeantThroughout) :
    (array items).MeantThroughout :=
  meantThroughout_of_children ⟨by simp, by simp⟩ h

theorem meantThroughout_object {members : List (String × Json)}
    (hbool : ("bool", .object []) ∉ members) (h : ∀ m ∈ members, m.2.MeantThroughout) :
    (object members).MeantThroughout := by
  refine meantThroughout_of_children ⟨by simp, ?_⟩ ?_
  · intro members' heq
    cases heq
    exact hbool
  · exact List.forall_mem_map.mpr h

theorem meantThroughout_keyed {key : String} {v : Json} (hbool : key = "bool" → v ≠ .object [])
    (h : v.MeantThroughout) : (keyed key v).MeantThroughout := by
  apply meantThroughout_object
  · simpa [eq_comm] using hbool
  · exact List.forall_mem_singleton.mpr h

/-- The key of a field may be any text, but there is something behind it. -/
theorem meantThroughout_keyed_keyed {key name inner : String} {v : Json} (hkey : key ≠ "bool")
    (hinner : inner ≠ "bool") (h : v.MeantThroughout) :
    (keyed key (keyed name (keyed inner v))).MeantThroughout := by
  refine meantThroughout_keyed (fun heq => absurd heq hkey) (meantThroughout_keyed ?_ ?_)
  · simp [keyed]
  · exact meantThroughout_keyed (fun heq => absurd heq hinner) h

end Json

namespace Scalar

theorem toJson_ne_array (v : Scalar) (items : List Json) : v.toJson ≠ .array items := by
  cases v with
  | number x => cases x <;> simp [toJson, Json.ofOption, Binary64.finite?]
  | _ => simp [toJson]

theorem toJson_ne_object (v : Scalar) (members : List (String × Json)) :
    v.toJson ≠ .object members := by
  cases v with
  | number x => cases x <;> simp [toJson, Json.ofOption, Binary64.finite?]
  | _ => simp [toJson]

theorem meantThroughout_toJson {v : Scalar} (h : v.isFinite = true) : v.toJson.MeantThroughout := by
  refine Json.meantThroughout_of_children ⟨toJson_ne_null h, ?_⟩ ?_
  · exact fun members heq => absurd heq (v.toJson_ne_object members)
  · intro child hchild
    rw [Json.children_eq_nil v.toJson_ne_array v.toJson_ne_object] at hchild
    exact absurd hchild List.not_mem_nil

end Scalar

namespace Clause

/-- The members of the object that a combination is sent as. -/
def members (must should mustNot : List Clause) (minimum : Option String) :
    List (String × Json) :=
  listMember "must" (must.map toJson) ++ listMember "should" (should.map toJson) ++
    listMember "must_not" (mustNot.map toJson) ++
      (minimum.map fun n => ("minimum_should_match", Json.string n)).toList

theorem toJson_combined (must should mustNot : List Clause) (minimum : Option String) :
    (combined must should mustNot minimum).toJson =
      Json.keyed "bool" (.object (members must should mustNot minimum)) := by
  simp only [toJson, members, toJsonAll_eq_map]
  cases minimum <;> rfl

theorem eq_of_mem_listMember {key : String} {items : List Json} {m : String × Json}
    (h : m ∈ listMember key items) : m = (key, .array items) := by
  cases items with
  | nil => cases h
  | cons v vs => exact List.mem_singleton.mp h

theorem listMember_eq_nil {key : String} {items : List Json} :
    listMember key items = [] ↔ items = [] := by
  cases items <;> simp [listMember]

section Members

variable {must should mustNot : List Clause} {minimum : Option String}

/-- A member of the object is a list of clauses of the combination, or the number. -/
theorem mem_members_cases {m : String × Json} (h : m ∈ members must should mustNot minimum) :
    (∃ n, m.2 = .string n) ∨
    ∃ clauses : List Clause, m.2 = .array (clauses.map toJson) ∧
      ∀ c ∈ clauses, c ∈ (combined must should mustNot minimum).children := by
  simp only [members, List.mem_append] at h
  rcases h with ((h | h) | h) | h
  · refine .inr ⟨must, congrArg Prod.snd (eq_of_mem_listMember h), fun c hc => ?_⟩
    simp [children, hc]
  · refine .inr ⟨should, congrArg Prod.snd (eq_of_mem_listMember h), fun c hc => ?_⟩
    simp [children, hc]
  · refine .inr ⟨mustNot, congrArg Prod.snd (eq_of_mem_listMember h), fun c hc => ?_⟩
    simp [children, hc]
  · obtain ⟨n, _, rfl⟩ := Option.map_eq_some_iff.mp (Option.mem_toList.mp h)
    exact .inl ⟨n, rfl⟩

/-- There is a member, if there is a clause. -/
theorem members_ne_nil (h : (combined must should mustNot minimum).children ≠ []) :
    members must should mustNot minimum ≠ [] := by
  intro hnil
  simp only [members, List.append_eq_nil_iff, listMember_eq_nil, List.map_eq_nil_iff] at hnil
  obtain ⟨⟨⟨hmust, hshould⟩, hmustNot⟩, _⟩ := hnil
  exact h (by rw [children, hmust, hshould, hmustNot]; rfl)

/-- A well-formed combination holds a clause. -/
theorem WellFormed.children_ne_nil {paths : List String}
    (h : (combined must should mustNot minimum).WellFormed paths) :
    (combined must should mustNot minimum).children ≠ [] := by
  intro hnil
  simp only [children, List.append_eq_nil_iff] at hnil
  obtain ⟨⟨rfl, rfl⟩, rfl⟩ := hnil
  exact absurd h.1 (by decide)

end Members

theorem mem_listMember {key : String} {items : List Json} {v : Json} (h : v ∈ items) :
    (key, .array items) ∈ listMember key items := by
  cases items with
  | nil => cases h
  | cons w ws => exact List.mem_singleton.mpr rfl

/-- What a clause is sent as stands inside what a combination is sent as that holds it. -/
theorem within_toJson_of_mem_children {part : Json} {c child : Clause} (hchild : child ∈ c.children)
    (h : Json.Within part child.toJson) : Json.Within part c.toJson := by
  cases c with
  | combined must should mustNot minimum =>
      have hlist : ∃ m ∈ members must should mustNot minimum, ∃ clauses : List Clause,
          m.2 = .array (clauses.map toJson) ∧ child ∈ clauses := by
        simp only [children, List.mem_append] at hchild
        simp only [members, List.mem_append]
        rcases hchild with (hmem | hmem) | hmem
        · exact ⟨_, .inl (.inl (.inl (mem_listMember (List.mem_map_of_mem hmem)))), must, rfl, hmem⟩
        · exact ⟨_, .inl (.inl (.inr (mem_listMember (List.mem_map_of_mem hmem)))), should, rfl,
            hmem⟩
        · exact ⟨_, .inl (.inr (mem_listMember (List.mem_map_of_mem hmem))), mustNot, rfl, hmem⟩
      obtain ⟨m, hm, clauses, hsent, hmem⟩ := hlist
      rw [toJson_combined]
      refine .keyed (.inside (List.mem_map_of_mem hm) ?_)
      rw [hsent]
      exact .inside (List.mem_map_of_mem hmem) h
  | _ => exact absurd hchild List.not_mem_nil

/-- What a well-formed clause is sent as is meant throughout. -/
theorem meantThroughout_toJson {paths : List String} {c : Clause}
    (h : ∀ part : Clause, part.Occurs c → part.WellFormed paths) : c.toJson.MeantThroughout := by
  induction c with
  | step c ih =>
      have hself := h c .here
      cases c with
      | matchAll | matchNone =>
          refine Json.meantThroughout_keyed (by simp) (Json.meantThroughout_object ?_ ?_)
          all_goals simp
      | term field value =>
          exact Json.meantThroughout_keyed_keyed (by simp) (by simp)
            (Scalar.meantThroughout_toJson hself.2)
      | range field bound value =>
          refine Json.meantThroughout_keyed_keyed (by simp) ?_
            (Scalar.meantThroughout_toJson hself.2)
          cases bound <;> simp [Bound.key]
      | wildcard field pattern | regexp field pattern =>
          exact Json.meantThroughout_keyed_keyed (by simp) (by simp)
            (Json.meantThroughout_string pattern)
      | present field =>
          refine Json.meantThroughout_keyed (by simp) (Json.meantThroughout_keyed (by simp) ?_)
          exact Json.meantThroughout_string field
      | script source =>
          refine Json.meantThroughout_keyed (by simp) (Json.meantThroughout_keyed (by simp) ?_)
          refine Json.meantThroughout_object (by simp) ?_
          simp [Json.meantThroughout_string]
      | combined must should mustNot minimum =>
          rw [toJson_combined]
          refine Json.meantThroughout_keyed (fun _ hempty => ?_)
            (Json.meantThroughout_object (fun hmem => ?_) fun m hmem => ?_)
          · exact members_ne_nil hself.children_ne_nil (Json.object.inj hempty)
          · rcases mem_members_cases hmem with ⟨_, heq⟩ | ⟨_, heq, _⟩
            · cases heq
            · cases heq
          · rcases mem_members_cases hmem with ⟨n, heq⟩ | ⟨clauses, heq, hclauses⟩
            · rw [heq]
              exact Json.meantThroughout_string n
            · rw [heq]
              refine Json.meantThroughout_array (List.forall_mem_map.mpr fun child hchild => ?_)
              exact ih child (hclauses child hchild) fun part hpart =>
                h part (.inside (hclauses child hchild) hpart)

end Clause

namespace Query

/-- The paths of the fields that a query names. -/
def fields (q : Query) : List String := q.condition.elim [] Formula.fields

/-- The clause of a query is well formed throughout. -/
theorem wellFormed_compile (q : Query) :
    ∀ part : Clause, part.Occurs q.compile → part.WellFormed q.fields := by
  obtain ⟨select, condition⟩ := q
  cases condition with
  | none => exact Clause.WellFormed.throughout trivial rfl
  | some f => exact f.wellFormed_compile

end Query

/-- Compiled queries are well formed. -/
theorem compiled_well_formed (q : Query) :
    (∀ c : Clause, c.Occurs q.compile → c.WellFormed q.fields) ∧
    ∀ v, Json.Within v q.compile.toJson → v ≠ .null ∧
      ∀ members, v = .object members → ("bool", .object []) ∉ members :=
  ⟨q.wellFormed_compile, Clause.meantThroughout_toJson q.wellFormed_compile⟩

/-! ## Another year -/

/-- Whatever is not of the year of a date. -/
def otherYearQuery : Query where
  select := none
  condition := some
    (.anyOf [.comparison .ne [yearNumber, .cast .text (.field "$sme#year")], .anyOf []])

/-- The clause for what is of the year. -/
def yearClause : Clause := .term "year" yearLiteral

theorem otherYearQuery_compile :
    otherYearQuery.compile = Clause.anyOf [Clause.negated yearClause, .matchAll] := by
  have hleaf : (Formula.comparison .ne [yearNumber, .cast .text (.field "$sme#year")]).compile =
      Clause.negated yearClause :=
    Comparison.ne.compile_literal_field rfl literal?_yearNumber
  change Clause.anyOf [Formula.compile _, .matchAll] = _
  rw [hleaf]

/-- Whatever is not called by its year. -/
def otherNameQuery : Query where
  select := none
  condition := some (.negation (.comparison .eq [.field "$sme#year", .field "$aas#idShort"]))

theorem otherNameQuery_compile :
    otherNameQuery.compile =
      Clause.negated (Clause.allOf [.present "year.keyword", .present "idShort.keyword",
        .script "doc['year.keyword'].value == doc['idShort.keyword'].value"]) := rfl

/-- The year is a finite number, asked of one of the fields of the query two clauses down, and
there is something behind each key on the way to it.  Two fields that are compared are asked for
first, under names with the suffix of keywords: one of them has it already. -/
theorem other_year_well_formed :
    yearClause.Occurs otherYearQuery.compile ∧ yearClause.WellFormed ["$sme#year"] ∧
    Json.Within (.object [("value", yearLiteral.toJson)]) otherYearQuery.compile.toJson ∧
    Json.object [("value", yearLiteral.toJson)] ≠ .null ∧
    ("bool", .object []) ∉ [("value", yearLiteral.toJson)] ∧
    (∀ keyword ∈ ["year.keyword", "idShort.keyword"],
      (Clause.present keyword).Occurs otherNameQuery.compile ∧
      (Clause.present keyword).WellFormed ["$sme#year", "$aas#idShort"]) := by
  have hoccurs : yearClause.Occurs otherYearQuery.compile := by
    rw [otherYearQuery_compile]
    have hnegated : yearClause.Occurs (Clause.negated yearClause) := .inside (by simp) .here
    exact .inside (by simp) hnegated
  have hwithin :
      Json.Within (.object [("value", yearLiteral.toJson)]) otherYearQuery.compile.toJson := by
    rw [otherYearQuery_compile]
    have hterm : Json.Within (.object [("value", yearLiteral.toJson)]) yearClause.toJson :=
      .keyed (.keyed .here)
    have hnegated := Clause.within_toJson_of_mem_children (c := Clause.negated yearClause)
      (List.mem_singleton.mpr rfl) hterm
    exact Clause.within_toJson_of_mem_children (by simp) hnegated
  have hguards : ∀ keyword ∈ ["year.keyword", "idShort.keyword"],
      (Clause.present keyword).Occurs otherNameQuery.compile := by
    intro keyword hkeyword
    rw [otherNameQuery_compile]
    refine .inside (List.mem_singleton.mpr rfl) (.inside ?_ .here)
    simpa [Clause.children, Clause.allOf] using hkeyword
  obtain ⟨hclauses, htrees⟩ := compiled_well_formed otherYearQuery
  obtain ⟨hnull, hbool⟩ := htrees _ hwithin
  obtain ⟨hothers, _⟩ := compiled_well_formed otherNameQuery
  exact ⟨hoccurs, hclauses yearClause hoccurs, hwithin, hnull, hbool _ rfl, fun keyword hkeyword =>
    ⟨hguards keyword hkeyword, hothers _ (hguards keyword hkeyword)⟩⟩

end AssetAccess
