import AssetAccess.Proofs.Search.Occurrence
set_option autoImplicit false

/-!
# What stands in a script

The source of a script is put together from the names of two fields and from fixed pieces
of code, and whoever asks the query chooses the names.  Reading the source back, code up
to a quote, a literal up to the next quote and so on, finds exactly the two names as
literals and between them the fixed pieces (`Script.lex?_fill`): a name with a quote in it
has no script.  Nor does a script stand anywhere but behind the tests that the document has
both fields.
-/

namespace AssetAccess

namespace Script

/-! ## Reading a script -/

/-- A script as code with literals in it: the code in front of the first literal, and each
literal with the code behind it. -/
structure Lexed where
  code : List Char
  literals : List (List Char × List Char)
  deriving DecidableEq

/-- What stands between the quotes of a script, in turn a literal and the code behind it.
Nothing where the last literal is not closed. -/
def literals? : List (List Char) → Option (List (List Char × List Char))
  | [] => some []
  | [_] => none
  | literal :: code :: rest => (literals? rest).map ((literal, code) :: ·)

/-- A script is read from its front.  A literal runs from one quote to the next. -/
def lex? (source : List Char) : Option Lexed :=
  match Text.segments '\'' source with
  | [] => none
  | code :: rest => (literals? rest).map (Lexed.mk code)

/-! ## Templates -/

/-- The code of a script: in front of the first name, between the names, and behind the
second one. -/
structure Template where
  lead : String
  middle : String
  tail : String
  deriving DecidableEq

namespace Template

/-- The code that a cast puts in front of the value of a field. -/
def castLead : Option CastType → String
  | none => ""
  | some .text => ""
  | some .dateTime => ""
  | some .time => ""
  | some .number => "Double.parseDouble("
  | some .boolean => "Boolean.parseBoolean("
  | some .hex => "Integer.parseInt("

/-- The code that a cast puts behind it. -/
def castTail : Option CastType → String
  | none => ""
  | some .text => ".toString()"
  | some .dateTime => ".toString()"
  | some .time => ".toString()"
  | some .number => ".toString())"
  | some .boolean => ".toString())"
  | some .hex => ".toString().substring(3), 16)"

/-- The code of a comparison of two fields under casts. -/
def comparison (op : Comparison) (left right : Option CastType) : Template where
  lead := castLead left ++ "doc["
  middle := "].value" ++ castTail left ++ " " ++ operator op ++ " " ++ castLead right ++ "doc["
  tail := "].value" ++ castTail right

/-- The code of a text test of two fields by a method. -/
def textTest (method : String) : Template where
  lead := "doc["
  middle := "].value" ++ "." ++ method ++ "(" ++ "doc["
  tail := "].value" ++ ")"

/-- The script with two names put between quotes. -/
def fill (t : Template) (first second : String) : String :=
  t.lead ++ "'" ++ first ++ "'" ++ t.middle ++ "'" ++ second ++ "'" ++ t.tail

/-- The code holds no quote. -/
structure Unquoted (t : Template) : Prop where
  lead : '\'' ∉ t.lead.toList
  middle : '\'' ∉ t.middle.toList
  tail : '\'' ∉ t.tail.toList

theorem not_mem_castLead (cast : Option CastType) : '\'' ∉ (castLead cast).toList := by
  cases cast with
  | none => decide
  | some c => cases c <;> decide

theorem not_mem_castTail (cast : Option CastType) : '\'' ∉ (castTail cast).toList := by
  cases cast with
  | none => decide
  | some c => cases c <;> decide

theorem not_mem_operator (op : Comparison) : '\'' ∉ (operator op).toList := by
  cases op <;> decide

theorem not_mem_method {op : TextTest} {method : String} (h : method? op = some method) :
    '\'' ∉ method.toList := by
  cases op with
  | contains | startsWith | endsWith =>
      cases h
      decide
  | regex => cases h

theorem not_mem_append {a b : String} (ha : '\'' ∉ a.toList) (hb : '\'' ∉ b.toList) :
    '\'' ∉ (a ++ b).toList := by
  rw [String.toList_append, List.mem_append, not_or]
  exact ⟨ha, hb⟩

theorem unquoted_comparison (op : Comparison) (left right : Option CastType) :
    (comparison op left right).Unquoted := by
  have hopen : '\'' ∉ ("doc[" : String).toList := by decide
  have hclose : '\'' ∉ ("].value" : String).toList := by decide
  have hspace : '\'' ∉ (" " : String).toList := by decide
  refine ⟨not_mem_append (not_mem_castLead left) hopen, ?_,
    not_mem_append hclose (not_mem_castTail right)⟩
  have hleft := not_mem_append hclose (not_mem_castTail left)
  have hop := not_mem_append (not_mem_append (not_mem_append hleft hspace)
    (not_mem_operator op)) hspace
  exact not_mem_append (not_mem_append hop (not_mem_castLead right)) hopen

theorem unquoted_textTest {op : TextTest} {method : String} (h : method? op = some method) :
    (textTest method).Unquoted := by
  have hopen : '\'' ∉ ("doc[" : String).toList := by decide
  have hdot : '\'' ∉ ("].value" ++ "." : String).toList := by decide
  have hcall : '\'' ∉ ("(" : String).toList := by decide
  have htail : '\'' ∉ ("].value" ++ ")" : String).toList := by decide
  have hmethod := not_mem_append hdot (not_mem_method h)
  exact ⟨hopen, not_mem_append (not_mem_append hmethod hcall) hopen, htail⟩

end Template

/-- A script that is made of names without quotes and of code without quotes is read as that
code, with the two names as its literals. -/
theorem lex?_fill {t : Template} (ht : t.Unquoted) {first second : String}
    (hfirst : '\'' ∉ first.toList) (hsecond : '\'' ∉ second.toList) :
    lex? (t.fill first second).toList =
      some ⟨t.lead.toList,
        [(first.toList, t.middle.toList), (second.toList, t.tail.toList)]⟩ := by
  have hsource : (t.fill first second).toList =
      t.lead.toList ++ '\'' :: (first.toList ++ '\'' :: (t.middle.toList ++
        '\'' :: (second.toList ++ '\'' :: t.tail.toList))) := by
    simp [Template.fill]
  rw [lex?, hsource, Text.segments_append_cons ht.lead, Text.segments_append_cons hfirst,
    Text.segments_append_cons ht.middle, Text.segments_append_cons hsecond,
    Text.segments_of_not_mem ht.tail]
  rfl

/-! ## The scripts that are written -/

/-- The quotes of a name in a script are quotes of their own. -/
theorem fieldValue_eq (name : String) :
    fieldValue name = "doc[" ++ ("'" ++ (name ++ ("'" ++ "].value"))) := by
  have hlead : "doc['" = "doc[" ++ "'" := rfl
  have htail : "'].value" = "'" ++ "].value" := rfl
  rw [fieldValue, hlead, htail]
  simp only [String.append_assoc]

theorem castValue_eq (name : String) (cast : Option CastType) :
    castValue name cast = Template.castLead cast ++ fieldValue name ++ Template.castTail cast := by
  have hnone : fieldValue name = "" ++ fieldValue name ++ "" := by
    rw [String.empty_append, String.append_empty]
  have htext : fieldValue name ++ ".toString()" = "" ++ fieldValue name ++ ".toString()" := by
    rw [String.empty_append]
  match cast with
  | none => exact hnone
  | some .text | some .dateTime | some .time => exact htext
  | some .number | some .boolean | some .hex => rfl

theorem comparison_source_eq (op : Comparison) (left : String) (leftCast : Option CastType)
    (right : String) (rightCast : Option CastType) :
    castValue left leftCast ++ " " ++ operator op ++ " " ++ castValue right rightCast =
      (Template.comparison op leftCast rightCast).fill left right := by
  simp only [castValue_eq, fieldValue_eq, Template.fill, Template.comparison,
    String.append_assoc]

theorem textTest_source_eq (method left right : String) :
    fieldValue left ++ "." ++ method ++ "(" ++ fieldValue right ++ ")" =
      (Template.textTest method).fill left right := by
  simp only [fieldValue_eq, Template.fill, Template.textTest, String.append_assoc]

theorem isQuotable_iff (name : String) :
    isQuotable name = true ↔ '\'' ∉ name.toList ∧ '\\' ∉ name.toList := by
  simp only [isQuotable, Bool.not_eq_true', List.any_eq_false, Bool.or_eq_true, beq_iff_eq,
    not_or]
  constructor
  · intro h
    exact ⟨fun hmem => (h _ hmem).1 rfl, fun hmem => (h _ hmem).2 rfl⟩
  · rintro ⟨hquote, hbackslash⟩ c hc
    exact ⟨fun heq => hquote (heq ▸ hc), fun heq => hbackslash (heq ▸ hc)⟩

/-- A script is written only for two names that can be quoted, and behind its guards. -/
theorem guarded?_eq_some {left right source : String} {c : Clause}
    (h : guarded? left right source = some c) :
    isQuotable left = true ∧ isQuotable right = true ∧
      c = Clause.allOf [.present left, .present right, .script source] := by
  unfold guarded? at h
  split at h
  · rename_i hquotable
    rw [Bool.and_eq_true] at hquotable
    exact ⟨hquotable.1, hquotable.2, (Option.some.inj h).symm⟩
  · cases h

end Script

theorem Field.finishesWith_keywordSuffix_iff (name : String) :
    Text.finishesWith keywordSuffix.toList name.toList = true ↔
      ∃ base, name = base ++ keywordSuffix := by
  rw [Text.finishesWith_iff]
  constructor
  · rintro ⟨base, hbase⟩
    refine ⟨String.ofList base, String.toList_injective ?_⟩
    rw [String.toList_append, String.toList_ofList, hbase]
  · rintro ⟨base, rfl⟩
    rw [String.toList_append]
    exact List.suffix_append _ _

/-- The name with the keyword suffix ends with it. -/
theorem Field.exists_keywordName_eq (name : String) :
    ∃ base, keywordName name = base ++ keywordSuffix := by
  unfold keywordName
  split
  · rename_i hends
    exact (finishesWith_keywordSuffix_iff name).mp hends
  · exact ⟨name, rfl⟩

/-! ## The leaves that have scripts -/

/-- A leaf of the formula has two fields, whose names in scripts are `first` and `second`, and
the template of a script.  The template depends on the operator of the leaf and on the
outermost casts of its operands alone. -/
inductive Formula.Joins (f : Formula) : Script.Template → String → String → Prop where
  | comparison {op : Comparison} {left right : Operand} {l r : String} :
      (Formula.comparison op [left, right]).IsPartOf f →
      left.indexName? = some l → right.indexName? = some r →
      Joins f (.comparison op left.castType? right.castType?)
        (Field.keywordName l) (Field.keywordName r)
  | textTest {op : TextTest} {left right : TextOperand} {l r method : String} :
      (Formula.textTest op [left, right]).IsPartOf f →
      left.indexName? = some l → right.indexName? = some r →
      Script.method? op = some method →
      Joins f (.textTest method) (Field.keywordName l) (Field.keywordName r)

namespace Formula.Joins

variable {f : Formula} {t : Script.Template} {first second : String}

theorem unquoted (h : f.Joins t first second) : t.Unquoted := by
  cases h with
  | comparison _ _ _ => exact Script.Template.unquoted_comparison ..
  | textTest _ _ _ hmethod => exact Script.Template.unquoted_textTest hmethod

theorem first_eq_append (h : f.Joins t first second) :
    ∃ base, first = base ++ Field.keywordSuffix := by
  cases h with
  | comparison | textTest => exact Field.exists_keywordName_eq _

theorem second_eq_append (h : f.Joins t first second) :
    ∃ base, second = base ++ Field.keywordSuffix := by
  cases h with
  | comparison | textTest => exact Field.exists_keywordName_eq _

end Formula.Joins

/-- The clause of a comparison is a script for two fields, or asks the field of one operand for
the literal of the other. -/
theorem Comparison.clauseOf?_cases {op : Comparison} {left right : Operand} {c : Clause}
    (h : op.clauseOf? left right = some c) :
    (∃ l r, left.indexName? = some l ∧ right.indexName? = some r ∧
      Script.comparison? op l left.castType? r right.castType? = some c) ∨
    ∃ (op' : Comparison) (field : String) (value : Scalar),
      (left.indexName? = some field ∧ right.literal? = some value ∨
        right.indexName? = some field ∧ left.literal? = some value) ∧
      c = op'.clause field value := by
  unfold clauseOf? at h
  split at h
  · rename_i l r hl hr
    exact .inl ⟨l, r, hl, hr, h⟩
  · rename_i hfield _
    obtain ⟨value, hvalue, rfl⟩ := Option.map_eq_some_iff.mp h
    exact .inr ⟨_, _, value, .inl ⟨hfield, hvalue⟩, rfl⟩
  · rename_i hfield
    obtain ⟨value, hvalue, rfl⟩ := Option.map_eq_some_iff.mp h
    exact .inr ⟨_, _, value, .inr ⟨hfield, hvalue⟩, rfl⟩
  · cases h

/-- So is that of a text test. -/
theorem TextTest.clauseOf?_cases {op : TextTest} {left right : TextOperand} {c : Clause}
    (h : op.clauseOf? left right = some c) :
    (∃ l r, left.indexName? = some l ∧ right.indexName? = some r ∧
      Script.textTest? op l r = some c) ∨
    ∃ (field value : String),
      (left.indexName? = some field ∧ right.literal? = some value ∨
        right.indexName? = some field ∧ left.literal? = some value) ∧
      c = op.clause field value := by
  unfold clauseOf? at h
  split at h
  · rename_i l r hl hr
    exact .inl ⟨l, r, hl, hr, h⟩
  · rename_i hfield _
    obtain ⟨value, hvalue, rfl⟩ := Option.map_eq_some_iff.mp h
    exact .inr ⟨_, value, .inl ⟨hfield, hvalue⟩, rfl⟩
  · rename_i hfield
    obtain ⟨value, hvalue, rfl⟩ := Option.map_eq_some_iff.mp h
    exact .inr ⟨_, value, .inr ⟨hfield, hvalue⟩, rfl⟩
  · cases h

/-- The clause of a leaf is the guarded script of two fields that the leaf joins, or asks one
field for a value or a text. -/
theorem Formula.LeafClause.guarded_or {f : Formula} {c : Clause} (h : f.LeafClause c) :
    (∃ t first second, f.Joins t first second ∧
      Script.guarded? first second (t.fill first second) = some c) ∨
    (∃ (op : Comparison) (field : String) (value : Scalar), c = op.clause field value) ∨
    ∃ (op : TextTest) (field value : String), c = op.clause field value := by
  cases h with
  | @comparison op left right hpart hclause =>
      rcases op.clauseOf?_cases hclause with
        ⟨l, r, hl, hr, hscript⟩ | ⟨op', field, value, _, hvalue⟩
      · refine .inl ⟨_, _, _, .comparison hpart hl hr, ?_⟩
        rw [← Script.comparison_source_eq]
        exact hscript
      · exact .inr (.inl ⟨op', field, value, hvalue⟩)
  | @textTest op left right hpart hclause =>
      rcases op.clauseOf?_cases hclause with ⟨l, r, hl, hr, hscript⟩ | ⟨field, value, _, hvalue⟩
      · rw [Script.textTest?] at hscript
        split at hscript
        · cases hscript
        · rename_i method hmethod
          refine .inl ⟨_, _, _, .textTest hpart hl hr hmethod, ?_⟩
          rw [← Script.textTest_source_eq]
          exact hscript
      · exact .inr (.inr ⟨op, field, value, hvalue⟩)

/-- No formula is compiled into a bare script. -/
theorem Formula.compile_ne_script (f : Formula) (source : String) :
    f.compile ≠ .script source := by
  have hleaf : ∀ {g : Formula} {c : Clause}, g.LeafClause c → c ≠ .script source := by
    rintro g c h rfl
    rcases h.guarded_or with ⟨t, first, second, _, hscript⟩ | ⟨op, _, _, hvalue⟩ |
      ⟨op, _, _, hvalue⟩
    · cases (Script.guarded?_eq_some hscript).2.2
    · cases op <;> cases hvalue
    · cases op <;> cases hvalue
  cases f with
  | allOf parts | anyOf parts | matchOf parts =>
      cases parts <;> simp [compile, Clause.allOf, Clause.anyOf]
  | negation f => simp [compile, Clause.negated]
  | comparison op operands =>
      rcases compile_comparison_cases op operands with hnothing | hclause
      · simp [hnothing]
      · exact hleaf hclause
  | textTest op operands =>
      rcases compile_textTest_cases op operands with hnothing | hclause
      · simp [hnothing]
      · exact hleaf hclause
  | constant b => cases b <;> simp [compile]

/-! ## Where scripts stand -/

/-- The clause holds a script only as the third of a conjunction, behind the tests of two
fields that a leaf of the formula joins; and the script is the template of that leaf, filled
with the names of the fields. -/
def Clause.GuardsScripts (f : Formula) (parent : Clause) : Prop :=
  ∀ source, .script source ∈ parent.children →
    ∃ t first second, f.Joins t first second ∧
      Script.isQuotable first = true ∧ Script.isQuotable second = true ∧
      parent = Clause.allOf [.present first, .present second, .script source] ∧
      source = t.fill first second

namespace Clause.GuardsScripts

variable {f : Formula} {parent c : Clause}

theorem of_no_script (h : ∀ source, .script source ∉ parent.children) :
    parent.GuardsScripts f :=
  fun source hsource => absurd hsource (h source)

/-- A clause that holds clauses of formulas holds no script: a formula is never compiled into
a bare script. -/
theorem of_compile {parts : List Formula}
    (h : parent.children = parts.map Formula.compile) : parent.GuardsScripts f := by
  apply of_no_script
  intro source hsource
  rw [h, List.mem_map] at hsource
  obtain ⟨g, _, hg⟩ := hsource
  exact Formula.compile_ne_script g source hg

/-- The guards of a script hold nothing, and the script stands behind them. -/
theorem of_guarded {t : Script.Template} {first second : String}
    (hjoins : f.Joins t first second)
    (hscript : Script.guarded? first second (t.fill first second) = some c)
    (hparent : parent.Occurs c) : parent.GuardsScripts f := by
  obtain ⟨hfirst, hsecond, rfl⟩ := Script.guarded?_eq_some hscript
  rw [occurs_iff, children_allOf] at hparent
  rcases hparent with rfl | ⟨child, hchild, hinside⟩
  · intro source hsource
    have hsame : source = t.fill first second := by simpa using hsource
    exact ⟨t, first, second, hjoins, hfirst, hsecond, by rw [hsame], hsame⟩
  · have hnone : child.children = [] := by
      simp only [List.mem_cons, List.not_mem_nil, or_false] at hchild
      rcases hchild with rfl | rfl | rfl <;> rfl
    rw [eq_of_occurs hnone hinside]
    exact of_no_script fun source => hnone ▸ List.not_mem_nil

/-- The clause that asks a field for a value holds no script, nor does anything in it. -/
theorem of_comparison {op : Comparison} {field : String} {value : Scalar}
    (hparent : parent.Occurs (op.clause field value)) : parent.GuardsScripts f := by
  apply of_no_script
  intro source hsource
  rw [occurs_iff] at hparent
  cases op with
  | eq | le | lt | ge | gt =>
      rcases hparent with rfl | ⟨child, hchild, _⟩
      · exact absurd hsource List.not_mem_nil
      · exact absurd hchild List.not_mem_nil
  | ne =>
      rcases hparent with rfl | ⟨child, hchild, hinside⟩
      · simp [Comparison.clause] at hsource
      · have hterm : child = .term field value := by simpa [Comparison.clause] using hchild
        rw [hterm] at hinside
        rw [eq_of_occurs rfl hinside] at hsource
        exact absurd hsource List.not_mem_nil

/-- Nor does the clause that asks a field for a text. -/
theorem of_textTest {op : TextTest} {field value : String}
    (hparent : parent.Occurs (op.clause field value)) : parent.GuardsScripts f := by
  have hnone : (op.clause field value).children = [] := by cases op <;> rfl
  rw [eq_of_occurs hnone hparent]
  exact of_no_script fun source => hnone ▸ List.not_mem_nil

/-- All that stands in the clause of a leaf guards its scripts. -/
theorem of_leafClause (hleaf : f.LeafClause c) (hparent : parent.Occurs c) :
    parent.GuardsScripts f := by
  rcases hleaf.guarded_or with ⟨t, first, second, hjoins, hscript⟩ | ⟨op, field, value, rfl⟩ |
    ⟨op, field, value, rfl⟩
  · exact of_guarded hjoins hscript hparent
  · exact of_comparison hparent
  · exact of_textTest hparent

/-- All that stands in the clause of a formula guards its scripts. -/
theorem of_occurs_compile (hparent : parent.Occurs f.compile) : parent.GuardsScripts f := by
  refine Formula.forall_occurs_compile (P := GuardsScripts f) ?_ ?_ ?_ ?_ ?_ f
    (fun c hc part hpart => of_leafClause hc hpart) parent hparent
  · exact of_no_script fun source => List.not_mem_nil
  · exact of_no_script fun source => List.not_mem_nil
  · exact fun parts _ => of_compile (children_allOf _)
  · exact fun parts _ => of_compile (children_anyOf _)
  · intro g
    have hchildren : (negated g.compile).children = [g].map Formula.compile := children_negated _
    exact of_compile hchildren

end Clause.GuardsScripts

/-! ## Every script is guarded and quoted -/

/-- The script is code of its template with two field names in it, each between quotes of its
own and nowhere else. -/
structure Script.Sealed (t : Template) (first second source : String) : Prop where
  first_keyword : ∃ base, first = base ++ Field.keywordSuffix
  second_keyword : ∃ base, second = base ++ Field.keywordSuffix
  first_plain : '\'' ∉ first.toList ∧ '\\' ∉ first.toList
  second_plain : '\'' ∉ second.toList ∧ '\\' ∉ second.toList
  reading : lex? source.toList =
    some ⟨t.lead.toList, [(first.toList, t.middle.toList), (second.toList, t.tail.toList)]⟩

/-- Whatever names a query gives to its fields, each script in its clause, at any depth, is the
third clause of a conjunction whose first two ask whether the document has the two fields of a
leaf; and it reads as the template of that leaf with the two names as its only literals. -/
theorem scripts_guarded (q : Query) :
    (∀ source, q.compile ≠ .script source) ∧
    ∀ parent source, Clause.Occurs parent q.compile → .script source ∈ parent.children →
      ∃ f t first second, q.condition = some f ∧ f.Joins t first second ∧
        parent = Clause.allOf [.present first, .present second, .script source] ∧
        Script.Sealed t first second source := by
  rw [Query.compile]
  cases q.condition with
  | none =>
      refine ⟨fun source => by simp, fun parent source hparent hsource => ?_⟩
      rw [Clause.eq_of_occurs rfl hparent] at hsource
      exact absurd hsource List.not_mem_nil
  | some f =>
      refine ⟨f.compile_ne_script, fun parent source hparent hsource => ?_⟩
      obtain ⟨t, first, second, hjoins, hfirst, hsecond, hplace, hsame⟩ :=
        Clause.GuardsScripts.of_occurs_compile hparent source hsource
      have hplain := (Script.isQuotable_iff first).mp hfirst
      have hplain' := (Script.isQuotable_iff second).mp hsecond
      have hreading := Script.lex?_fill hjoins.unquoted hplain.1 hplain'.1
      rw [← hsame] at hreading
      exact ⟨f, t, first, second, rfl, hjoins, hplace,
        ⟨hjoins.first_eq_append, hjoins.second_eq_append, hplain, hplain', hreading⟩⟩

/-- A name that would end its quotes is not put into a script. -/
example :
    (Query.mk none (some (.comparison .eq
      [.field "$aas#x'].value != null || true || doc['y", .field "$aas#idShort"]))).compile =
      .matchAll := rfl

/-- Whatever is not above its limit. -/
def limitQuery : Query where
  select := none
  condition := some
    (.anyOf
      [.negation (.comparison .gt
        [.cast .number (.field "$sme.temperature#value"), .cast .number (.field "$sm#limit")]),
        .constant false])

/-- The script that compares a value with its limit. -/
def limitScript : String :=
  "Double.parseDouble(doc['value.keyword'].value.toString()) > " ++
    "Double.parseDouble(doc['limit.keyword'].value.toString())"

/-- The script and its guards. -/
def limitClause : Clause :=
  Clause.allOf [.present "value.keyword", .present "limit.keyword", .script limitScript]

/-- The script of the query stands behind its guards, inside a negation, and reads as code
with the names of the value and of the limit as its literals. -/
theorem limit_script_sealed :
    limitClause.Occurs limitQuery.compile ∧ .script limitScript ∈ limitClause.children ∧
      ∃ t, Script.Sealed t "value.keyword" "limit.keyword" limitScript := by
  have hcompile : limitQuery.compile =
      Clause.anyOf [Clause.negated limitClause, .matchNone] := rfl
  have hoccurs : limitClause.Occurs limitQuery.compile := by
    rw [hcompile]
    have hnegated : limitClause.Occurs (Clause.negated limitClause) :=
      .inside (by simp) .here
    exact .inside (by simp) hnegated
  have hscript : .script limitScript ∈ limitClause.children := by
    simp [limitClause]
  obtain ⟨_, hguarded⟩ := scripts_guarded limitQuery
  obtain ⟨_, t, first, second, _, _, hplace, hsealed⟩ :=
    hguarded limitClause limitScript hoccurs hscript
  have hnames : "value.keyword" = first ∧ "limit.keyword" = second := by
    simpa [limitClause, Clause.allOf] using hplace
  rw [← hnames.1, ← hnames.2] at hsealed
  exact ⟨hoccurs, hscript, t, hsealed⟩

end AssetAccess
