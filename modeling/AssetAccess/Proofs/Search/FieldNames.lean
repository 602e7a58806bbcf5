import AssetAccess.Field
import Mathlib.Data.List.Infix
set_option autoImplicit false

/-!
# Names of fields

A path is the prefix of a part of the model and a text behind it (`Field.Lead`).  No prefix begins
another one, and the one that may hold a qualifier ends at the first `#`, so the text behind the
prefix is the same however the prefix is looked for (`Field.modelName?_eq_some_iff`).

The name of the field is what is left of that text without the list markers in it.  Two markers
cannot overlap, so the text falls into pieces without markers in one way, and the name is all
pieces together (`Field.dropMarkers_eq_iff`).  The index knows the field by this name alone, with
a suffix that depends on it (`field_names_prefix_free`).
-/

namespace AssetAccess.Field

open Text

/-! ## Prefixes -/

/-- The prefix of a part of the model. -/
inductive Lead : String → Prop where
  | shell : Lead "$aas#"
  | submodel : Lead "$sm#"
  | concept : Lead "$cd#"
  | shellDescriptor : Lead "$aasdesc#"
  | submodelDescriptor : Lead "$smdesc#"
  /-- submodel elements, with a qualifier -/
  | element {qualifier : String} : '#' ∉ qualifier.toList → Lead ("$sme" ++ qualifier ++ "#")

theorem afterFirst?_append {c : Char} {before : List Char} (h : c ∉ before) (rest : List Char) :
    afterFirst? c (before ++ c :: rest) = some rest := by
  induction before with
  | nil => exact if_pos rfl
  | cons d before ih =>
      rw [List.mem_cons, not_or] at h
      rw [List.cons_append, afterFirst?, if_neg (Ne.symm h.1)]
      exact ih h.2

theorem exists_of_afterFirst? {c : Char} {cs rest : List Char} (h : afterFirst? c cs = some rest) :
    ∃ before, c ∉ before ∧ cs = before ++ c :: rest := by
  induction cs with
  | nil => cases h
  | cons d cs ih =>
      rw [afterFirst?] at h
      split at h
      · rename_i hd
        cases h
        exact ⟨[], List.not_mem_nil, congrArg (· :: rest) hd⟩
      · rename_i hd
        obtain ⟨before, hbefore, rfl⟩ := ih h
        refine ⟨d :: before, ?_, rfl⟩
        rw [List.mem_cons, not_or]
        exact ⟨Ne.symm hd, hbefore⟩

/-- Behind a prefix stands the name. -/
theorem Lead.modelName?_append {lead : String} (h : Lead lead) (name : List Char) :
    modelName? (lead.toList ++ name) = some name := by
  cases h with
  | shell | submodel | concept | shellDescriptor | submodelDescriptor => rfl
  | @element qualifier hqualifier =>
      have hpath : ("$sme" ++ qualifier ++ "#").toList ++ name =
          elementLead ++ (qualifier.toList ++ '#' :: name) := by
        simp only [String.toList_append, List.append_assoc]
        rfl
      rw [hpath, modelName?, dropLead?_append]
      exact afterFirst?_append hqualifier name

/-- A path leads to a name exactly if a prefix stands before it. -/
theorem modelName?_eq_some_iff {path name : List Char} :
    modelName? path = some name ↔ ∃ lead, Lead lead ∧ path = lead.toList ++ name := by
  constructor
  · intro h
    rw [modelName?] at h
    split at h
    · rename_i rest hrest
      obtain ⟨qualifier, hqualifier, rfl⟩ := exists_of_afterFirst? h
      refine ⟨"$sme" ++ String.ofList qualifier ++ "#", .element ?_, ?_⟩
      · rw [String.toList_ofList]
        exact hqualifier
      · rw [eq_append_of_dropLead? hrest]
        simp only [String.toList_append, String.toList_ofList, List.append_assoc]
        rfl
    · obtain ⟨lead, hlead, hname⟩ := List.exists_of_findSome?_eq_some h
      have hpath := eq_append_of_dropLead? hname
      simp only [plainLeads, List.mem_cons, List.not_mem_nil, or_false] at hlead
      rcases hlead with rfl | rfl | rfl | rfl | rfl
      · exact ⟨_, .shell, hpath⟩
      · exact ⟨_, .submodel, hpath⟩
      · exact ⟨_, .concept, hpath⟩
      · exact ⟨_, .shellDescriptor, hpath⟩
      · exact ⟨_, .submodelDescriptor, hpath⟩
  · rintro ⟨lead, hlead, rfl⟩
    exact hlead.modelName?_append name

/-! ## List markers -/

/-- The marker of a list. -/
def marker : List Char := ['[', ']']

/-- The text without its markers: it falls into pieces with a marker between each two of them,
and these are put together. -/
def WithoutMarkers (cs name : List Char) : Prop :=
  ∃ piece pieces, (∀ p ∈ piece :: pieces, ¬ marker <:+: p) ∧
    cs = piece ++ pieces.flatMap (marker ++ ·) ∧ name = (piece :: pieces).flatten

/-- The second text is the first one with markers put in, in any number and at any places. -/
inductive Marked : List Char → List Char → Prop where
  | nil : Marked [] []
  | char {cs ds : List Char} (c : Char) : Marked cs ds → Marked (c :: cs) (c :: ds)
  | marker {cs ds : List Char} : Marked cs ds → Marked cs (Field.marker ++ ds)

theorem Marked.refl (cs : List Char) : Marked cs cs := by
  induction cs with
  | nil => exact .nil
  | cons c cs ih => exact .char c ih

theorem marker_prefix_cons_iff {c : Char} {cs : List Char} :
    marker <+: c :: cs ↔ c = '[' ∧ ∃ rest, cs = ']' :: rest := by
  rw [marker, List.cons_prefix_cons, eq_comm]
  cases cs with
  | nil => simp
  | cons d cs => simp [List.cons_prefix_cons, eq_comm]

theorem dropMarkers_cons {c : Char} {cs : List Char} (h : ¬ marker <+: c :: cs) :
    dropMarkers (c :: cs) = c :: dropMarkers cs := by
  rw [marker_prefix_cons_iff, not_and] at h
  rw [dropMarkers.eq_def]
  split
  · rename_i heq
    cases heq
    exact absurd ⟨_, rfl⟩ (h rfl)
  · rename_i heq
    cases heq
    rfl
  · rename_i heq
    cases heq

/-- A piece without markers is kept, in front of a marker or at the end. -/
theorem dropMarkers_append {piece cs : List Char} (hpiece : ¬ marker <:+: piece)
    (hcs : cs = [] ∨ marker <+: cs) : dropMarkers (piece ++ cs) = piece ++ dropMarkers cs := by
  induction piece with
  | nil => rfl
  | cons c piece ih =>
      rw [List.infix_cons_iff, not_or] at hpiece
      have hnone : ¬ marker <+: c :: (piece ++ cs) := by
        rw [marker_prefix_cons_iff]
        rintro ⟨rfl, rest, hrest⟩
        cases piece with
        | nil =>
            rcases hcs with rfl | ⟨behind, rfl⟩
            · cases hrest
            · cases hrest
        | cons d piece =>
            cases hrest
            exact hpiece.1 (marker_prefix_cons_iff.mpr ⟨rfl, piece, rfl⟩)
      rw [List.cons_append, dropMarkers_cons hnone, ih hpiece.2, List.cons_append]

theorem dropMarkers_marker (cs : List Char) : dropMarkers (marker ++ cs) = dropMarkers cs := by
  rw [marker, List.cons_append, List.cons_append, List.nil_append, dropMarkers]

theorem dropMarkers_flatMap {pieces : List (List Char)} (h : ∀ p ∈ pieces, ¬ marker <:+: p) :
    dropMarkers (pieces.flatMap (marker ++ ·)) = pieces.flatten := by
  induction pieces with
  | nil => rfl
  | cons piece pieces ih =>
      have hrest : pieces.flatMap (marker ++ ·) = [] ∨ marker <+: pieces.flatMap (marker ++ ·) := by
        cases pieces with
        | nil => exact .inl rfl
        | cons next pieces =>
            rw [List.flatMap_cons, List.append_assoc]
            exact .inr (List.prefix_append _ _)
      rw [List.flatMap_cons, List.append_assoc, dropMarkers_marker,
        dropMarkers_append (h piece List.mem_cons_self) hrest,
        ih fun p hp => h p (List.mem_cons_of_mem piece hp), List.flatten_cons]

/-- What is left of a text is the one text without its markers. -/
theorem dropMarkers_eq_iff {cs name : List Char} :
    dropMarkers cs = name ↔ WithoutMarkers cs name := by
  constructor
  · rintro rfl
    fun_induction dropMarkers cs with
    | case1 cs ih =>
        obtain ⟨piece, pieces, hpieces, hcs, hname⟩ := ih
        refine ⟨[], piece :: pieces, ?_, ?_, hname⟩
        · rw [List.forall_mem_cons]
          exact ⟨by simp [marker], hpieces⟩
        · rw [List.flatMap_cons, List.nil_append, List.append_assoc, ← hcs]
          rfl
    | case2 c cs hnone ih =>
        obtain ⟨piece, pieces, hpieces, hcs, hname⟩ := ih
        refine ⟨c :: piece, pieces, ?_, ?_, ?_⟩
        · rw [List.forall_mem_cons] at hpieces ⊢
          refine ⟨?_, hpieces.2⟩
          rw [List.infix_cons_iff, not_or, marker_prefix_cons_iff]
          refine ⟨?_, hpieces.1⟩
          rintro ⟨hc, rest, hrest⟩
          rw [hrest, List.cons_append] at hcs
          exact hnone _ hc hcs
        · rw [hcs, List.cons_append]
        · rw [hname, List.flatten_cons, List.flatten_cons, List.cons_append]
    | case3 => exact ⟨[], [], by simp [marker], rfl, rfl⟩
  · rintro ⟨piece, pieces, hpieces, rfl, rfl⟩
    have hall := dropMarkers_flatMap hpieces
    rw [List.flatMap_cons, List.append_assoc, dropMarkers_marker] at hall
    exact hall

/-- Markers that are put into a text without opening brackets are all that is removed. -/
theorem dropMarkers_of_marked {cs ds : List Char} (h : Marked cs ds) (hcs : '[' ∉ cs) :
    dropMarkers ds = cs := by
  induction h with
  | nil => rfl
  | char c _ ih =>
      rw [List.mem_cons, not_or] at hcs
      have hnone : ∀ ds : List Char, ¬ marker <+: c :: ds := by
        intro ds hahead
        exact hcs.1 (marker_prefix_cons_iff.mp hahead).1.symm
      rw [dropMarkers_cons (hnone _), ih hcs.2]
  | marker _ ih => rw [dropMarkers_marker, ih hcs]

/-! ## The name in the index -/

/-- The name holds a part for which a field is matched under its keyword sub-field. -/
def HoldsKeyword (name : String) : Prop := ∃ part ∈ keywordParts, part <:+: name.toList

theorem isKeyword_iff (name : String) : isKeyword name.toList = true ↔ HoldsKeyword name := by
  simp only [isKeyword, List.any_eq_true, holds_iff, HoldsKeyword]

theorem isModelPath_iff {path : String} :
    isModelPath path = true ↔ ∃ lead name, Lead lead ∧ path = lead ++ name := by
  rw [isModelPath, Option.isSome_iff_exists]
  constructor
  · rintro ⟨name, hname⟩
    obtain ⟨lead, hlead, hpath⟩ := modelName?_eq_some_iff.mp hname
    refine ⟨lead, String.ofList name, hlead, ?_⟩
    rw [← String.toList_inj, hpath, String.toList_append, String.toList_ofList]
  · rintro ⟨lead, name, hlead, rfl⟩
    refine ⟨name.toList, ?_⟩
    rw [String.toList_append]
    exact hlead.modelName?_append _

/-- Behind any prefix, the index name is made of the name without markers alone. -/
theorem indexName?_append {lead text name : String} (hlead : Lead lead)
    (hname : WithoutMarkers text.toList name.toList) :
    indexName? (lead ++ text) =
      if name = "" then none
      else if isKeyword name.toList then some (name ++ ".keyword") else some name := by
  rw [indexName?, String.toList_append, hlead.modelName?_append]
  simp only [dropMarkers_eq_iff.mpr hname, String.ofList_toList, List.isEmpty_iff,
    String.toList_eq_nil_iff]
  rfl

theorem indexName?_eq_none_iff {lead text name : String} (hlead : Lead lead)
    (hname : WithoutMarkers text.toList name.toList) :
    indexName? (lead ++ text) = none ↔ name = "" := by
  rw [indexName?_append hlead hname]
  split
  · rename_i hempty
    simp [hempty]
  · rename_i hempty
    split <;> simp [hempty]

/-- The name of a text is there, and there is only one. -/
theorem existsUnique_withoutMarkers (text : String) :
    ∃! name : String, WithoutMarkers text.toList name.toList := by
  refine ⟨String.ofList (dropMarkers text.toList), ?_, ?_⟩
  · beta_reduce
    rw [String.toList_ofList]
    exact dropMarkers_eq_iff.mp rfl
  · intro name hname
    rw [dropMarkers_eq_iff.mpr hname, String.ofList_toList]

theorem indexName?_eq_of_marked {lead text other : String} (hlead : Lead lead)
    (hbrackets : '[' ∉ text.toList) (h : Marked text.toList other.toList) :
    indexName? (lead ++ other) = indexName? (lead ++ text) := by
  have hself : dropMarkers text.toList = text.toList :=
    dropMarkers_of_marked (Marked.refl _) hbrackets
  rw [indexName?_append hlead (dropMarkers_eq_iff.mp (dropMarkers_of_marked h hbrackets)),
    indexName?_append hlead (dropMarkers_eq_iff.mp hself)]

/-- The index name of a path depends on what stands behind the prefix alone, and on that without
its list markers.  Nothing may be left of it then, and the path has no index name; else the name
that is left is the index name, with the keyword suffix exactly if it holds a keyword.  So list
markers that are put into a text without opening brackets make no difference.  A path addresses
the model exactly if it has one of the prefixes.  A path that does not has no index name, and of
those that do only the ones have none that have an empty name. -/
theorem field_names_prefix_free :
    (∀ text lead lead' : String, Lead lead → Lead lead' →
      indexName? (lead ++ text) = indexName? (lead' ++ text)) ∧
    (∀ text : String, ∃! name : String, WithoutMarkers text.toList name.toList) ∧
    (∀ text name lead : String, Lead lead → WithoutMarkers text.toList name.toList →
      (indexName? (lead ++ text) = none ↔ name = "") ∧
      (name ≠ "" →
        (HoldsKeyword name → indexName? (lead ++ text) = some (name ++ ".keyword")) ∧
        (¬ HoldsKeyword name → indexName? (lead ++ text) = some name))) ∧
    (∀ text other lead : String, Lead lead → '[' ∉ text.toList →
      Marked text.toList other.toList →
      indexName? (lead ++ other) = indexName? (lead ++ text)) ∧
    (∀ path : String,
      (isModelPath path = true ↔ ∃ lead text, Lead lead ∧ path = lead ++ text) ∧
      ((indexName? path).isSome = true → isModelPath path = true) ∧
      ((¬ ∃ lead text, Lead lead ∧ path = lead ++ text) → indexName? path = none) ∧
      (isModelPath path = true ∧ indexName? path = none ↔
        ∃ lead text, Lead lead ∧ path = lead ++ text ∧ WithoutMarkers text.toList [])) := by
  refine ⟨?_, existsUnique_withoutMarkers, ?_, fun text other lead => indexName?_eq_of_marked, ?_⟩
  · intro text lead lead' hlead hlead'
    obtain ⟨name, hname, _⟩ := existsUnique_withoutMarkers text
    rw [indexName?_append hlead hname, indexName?_append hlead' hname]
  · intro text name lead hlead hname
    refine ⟨indexName?_eq_none_iff hlead hname, fun hne => ?_⟩
    rw [indexName?_append hlead hname, if_neg hne, ← isKeyword_iff]
    exact ⟨fun hkeyword => if_pos hkeyword, fun hnone => if_neg hnone⟩
  · intro path
    have hsome : (indexName? path).isSome = true → isModelPath path = true := by
      rw [Option.isSome_iff_exists]
      rintro ⟨name, hname⟩
      exact isModelPath_of_indexName? hname
    refine ⟨isModelPath_iff, hsome, ?_, ?_⟩
    · intro hnone
      rw [← isModelPath_iff] at hnone
      rw [← Option.not_isSome_iff_eq_none]
      exact mt hsome hnone
    · constructor
      · rintro ⟨hmodel, hnone⟩
        obtain ⟨lead, text, hlead, rfl⟩ := isModelPath_iff.mp hmodel
        obtain ⟨name, hname, _⟩ := existsUnique_withoutMarkers text
        have hempty := (indexName?_eq_none_iff hlead hname).mp hnone
        rw [hempty] at hname
        exact ⟨lead, text, hlead, rfl, hname⟩
      · rintro ⟨lead, text, hlead, rfl, hname⟩
        have hnone : indexName? (lead ++ text) = none ↔ "" = "" :=
          indexName?_eq_none_iff hlead hname
        exact ⟨isModelPath_iff.mpr ⟨lead, text, hlead, rfl⟩, hnone.mpr rfl⟩

/-- Brackets that only come together when a marker between them is removed stay. -/
example : indexName? "$aas#row[[]].kind" = some "row[].kind" := by decide

/-! ## The name behind a qualifier -/

/-- The name of a submodel element is found behind a qualifier with brackets and an index in it,
and is the one that it has elsewhere, with and without list markers.  A path with another prefix
has no index name, and nor has one with nothing but markers behind the prefix. -/
theorem qualified_name_resolved :
    (Lead "$smdesc#" ∧ Lead ("$sme" ++ ".rows[2][]" ++ "#") ∧
      WithoutMarkers "[]row[][].id".toList "row.id".toList ∧ HoldsKeyword "row.id") ∧
    indexName? "$sme.rows[2][]#[]row[][].id" = some "row.id.keyword" ∧
    ('[' ∉ "row.id".toList ∧ Marked "row.id".toList "[]row[][].id".toList ∧
      indexName? "$smdesc#row.id" = some "row.id.keyword") ∧
    (isModelPath "$sm.rows#row.id" = false ∧ indexName? "$sm.rows#row.id" = none) ∧
    (WithoutMarkers "[][]".toList [] ∧ isModelPath "$aas#[][]" = true ∧
      indexName? "$aas#[][]" = none) := by
  have helement : Lead ("$sme" ++ ".rows[2][]" ++ "#") := .element (by decide)
  have hname : WithoutMarkers "[]row[][].id".toList "row.id".toList :=
    dropMarkers_eq_iff.mp (by decide)
  have hkeyword : HoldsKeyword "row.id" := (isKeyword_iff _).mp (by decide)
  have hmarked : Marked "row.id".toList "[]row[][].id".toList :=
    .marker (.char 'r' (.char 'o' (.char 'w' (.marker (.marker (.char '.' (.char 'i'
      (.char 'd' .nil))))))))
  have hbrackets : '[' ∉ "row.id".toList := by decide
  have hother : isModelPath "$sm.rows#row.id" = false := by decide
  have hnothing : WithoutMarkers "[][]".toList [] := dropMarkers_eq_iff.mp (by decide)
  obtain ⟨hleads, _, hresolved, hsame, hpaths⟩ := field_names_prefix_free
  have hmarkedName := (hresolved _ _ _ helement hname).2 (by decide)
  have hplain := hsame _ _ _ .submodelDescriptor hbrackets hmarked
  have hbehind := (hleads _ _ _ .submodelDescriptor helement).trans (hmarkedName.1 hkeyword)
  obtain ⟨hmodel, _, hnone, _⟩ := hpaths "$sm.rows#row.id"
  obtain ⟨_, _, _, hempty⟩ := hpaths "$aas#[][]"
  have hunresolved := hnone fun hlead => by
    rw [hmodel.mpr hlead] at hother
    cases hother
  have hleft := hempty.mpr ⟨"$aas#", "[][]", .shell, rfl, hnothing⟩
  exact ⟨⟨.submodelDescriptor, helement, hname, hkeyword⟩, hmarkedName.1 hkeyword,
    ⟨hbrackets, hmarked, hplain.symm.trans hbehind⟩, ⟨hother, hunresolved⟩,
    ⟨hnothing, hleft.1, hleft.2⟩⟩

end AssetAccess.Field
