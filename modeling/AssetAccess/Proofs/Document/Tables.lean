import AssetAccess.Document.Resolve
set_option autoImplicit false

/-!
# Names and their definitions

The definitions of a list are read into a table one after another.  Two things are said of
the result, for every start of the pass: under a name the table has the first definition of
it (`first?_tabulate`), and there is a fault for each name that is defined again
(`faults_tabulate`).  So a list without faults defines each name once, and then it does not
matter in which order its definitions stand.
-/

namespace AssetAccess

namespace Definition

variable {α : Type}

/-- The names that are defined, in order. -/
def names (ds : List (Definition α)) : List String := ds.map Definition.name

theorem names_cons (d : Definition α) (ds : List (Definition α)) :
    names (d :: ds) = d.name :: names ds := rfl

/-- What is defined under a name.  The first definition counts. -/
def named? (name : String) (ds : List (Definition α)) : Option α :=
  (ds.find? fun d => decide (d.name = name)).map Definition.value

theorem named?_cons (name : String) (d : Definition α) (ds : List (Definition α)) :
    named? name (d :: ds) = if d.name = name then some d.value else named? name ds := by
  by_cases h : d.name = name
  · simp [named?, h]
  · simp [named?, h]

theorem named?_eq_none_iff (name : String) (ds : List (Definition α)) :
    named? name ds = none ↔ name ∉ names ds := by
  rw [named?, Option.map_eq_none_iff, List.find?_eq_none, names, List.mem_map]
  simp

/-- A name under which something is defined is one of the names that are defined. -/
theorem mem_names_of_named?_eq_some {ds : List (Definition α)} {name : String} {v : α}
    (h : named? name ds = some v) : name ∈ names ds := by
  apply Decidable.byContradiction
  intro hundefined
  rw [← named?_eq_none_iff, h] at hundefined
  cases hundefined

/-- Where each name is defined once, a definition counts wherever it stands. -/
theorem named?_eq_some_iff {ds : List (Definition α)} (hdistinct : (names ds).Nodup)
    (name : String) (v : α) : named? name ds = some v ↔ ⟨name, v⟩ ∈ ds := by
  induction ds with
  | nil => simp [named?]
  | cons d ds ih =>
      rw [names_cons, List.nodup_cons] at hdistinct
      obtain ⟨hfresh, hrest⟩ := hdistinct
      rw [named?_cons, List.mem_cons]
      by_cases h : d.name = name
      · rw [if_pos h]
        have hnot : (⟨name, v⟩ : Definition α) ∉ ds := fun hmem =>
          hfresh (h ▸ List.mem_map_of_mem hmem)
        obtain ⟨name', v'⟩ := d
        simp only at h
        simp [h, hnot, eq_comm]
      · rw [if_neg h, ih hrest]
        have hother : (⟨name, v⟩ : Definition α) ≠ d := fun heq => h (heq ▸ rfl)
        simp [hother]

/-- The names of a list that stand in it, or before it, already. -/
def repeated (earlier : List String) : List String → List String
  | [] => []
  | n :: ns =>
    if n ∈ earlier then n :: repeated (n :: earlier) ns else repeated (n :: earlier) ns

theorem repeated_eq_nil_iff (earlier ns : List String) :
    repeated earlier ns = [] ↔ ns.Nodup ∧ ∀ n ∈ ns, n ∉ earlier := by
  induction ns generalizing earlier with
  | nil => simp [repeated]
  | cons n ns ih =>
      rw [repeated]
      by_cases h : n ∈ earlier
      · simp [h]
      · rw [if_neg h, ih, List.nodup_cons, List.forall_mem_cons]
        constructor
        · rintro ⟨hnodup, hfresh⟩
          refine ⟨⟨fun hmem => hfresh n hmem List.mem_cons_self, hnodup⟩, h, ?_⟩
          exact fun m hm hearlier => hfresh m hm (List.mem_cons_of_mem n hearlier)
        · rintro ⟨⟨hn, hnodup⟩, _, hfresh⟩
          refine ⟨hnodup, fun m hm hmem => ?_⟩
          rcases List.mem_cons.mp hmem with rfl | hearlier
          · exact hn hm
          · exact hfresh m hm hearlier

/-- A name is repeated if it stands before the list and in it, or twice in it. -/
theorem mem_repeated_iff (earlier ns : List String) (name : String) :
    name ∈ repeated earlier ns ↔ (name ∈ earlier ∧ name ∈ ns) ∨ 1 < ns.count name := by
  induction ns generalizing earlier with
  | nil => simp [repeated]
  | cons n ns ih =>
      have hhead : name ∈ repeated earlier (n :: ns) ↔
          (name = n ∧ n ∈ earlier) ∨ name ∈ repeated (n :: earlier) ns := by
        rw [repeated]
        by_cases h : n ∈ earlier
        · simp [h]
        · simp [h]
      rw [hhead, ih]
      by_cases h : name = n
      · subst h
        rw [List.count_cons_self, Nat.lt_add_left_iff_pos, List.count_pos_iff]
        constructor
        · rintro (⟨_, hearlier⟩ | ⟨_, hlater⟩ | hcount)
          · exact .inl ⟨hearlier, List.mem_cons_self⟩
          · exact .inr hlater
          · exact .inr (List.count_pos_iff.mp (Nat.zero_lt_of_lt hcount))
        · rintro (⟨hearlier, _⟩ | hlater)
          · exact .inl ⟨rfl, hearlier⟩
          · exact .inr (.inl ⟨List.mem_cons_self, hlater⟩)
      · have hother : ¬ n = name := fun heq => h heq.symm
        simp [h, List.count_cons_of_ne hother]

end Definition

namespace Document

open Definition

variable {α : Type}

/-! ## One table -/

theorem first?_define (c : Checked (List (String × α))) (d : Definition α) (name : String) :
    Table.first? name (c.define d).value =
      (Table.first? name c.value).or (if d.name = name then some d.value else none) := by
  unfold Checked.define
  split
  · rename_i hkey
    by_cases h : d.name = name
    · rw [← Table.first?_isSome, h, Option.isSome_iff_exists] at hkey
      obtain ⟨v, hv⟩ := hkey
      rw [hv]
      rfl
    · rw [if_neg h, Option.or_none]
  · rw [Table.first?_append]
    rfl

theorem first?_foldl_define (ds : List (Definition α)) (c : Checked (List (String × α)))
    (name : String) :
    Table.first? name (ds.foldl Checked.define c).value =
      (Table.first? name c.value).or (named? name ds) := by
  induction ds generalizing c with
  | nil => simp [named?]
  | cons d ds ih =>
      rw [List.foldl_cons, ih, first?_define, Option.or_assoc, named?_cons]
      by_cases h : d.name = name
      · simp [h]
      · simp [h]

/-- Under a name the table has what is defined under it. -/
theorem first?_tabulate (ds : List (Definition α)) (name : String) :
    Table.first? name (tabulate ds).value = named? name ds := by
  rw [tabulate, first?_foldl_define]
  rfl

theorem hasKey_define (c : Checked (List (String × α))) (d : Definition α) (name : String) :
    Table.hasKey name (c.define d).value =
      (Table.hasKey name c.value || decide (d.name = name)) := by
  rw [← Table.first?_isSome, ← Table.first?_isSome, first?_define, Option.isSome_or]
  by_cases h : d.name = name
  · simp [h]
  · simp [h]

/-- What a pass over definitions finds wrong, if the names in the table are those that stand
before the definitions. -/
theorem faults_foldl_define (ds : List (Definition α)) (c : Checked (List (String × α)))
    (earlier : List String) (hearlier : ∀ n, Table.hasKey n c.value = decide (n ∈ earlier)) :
    (ds.foldl Checked.define c).faults =
      c.faults ++ (repeated earlier (names ds)).map Fault.redefined := by
  induction ds generalizing c earlier with
  | nil => simp [names, repeated]
  | cons d ds ih =>
      have hnext : ∀ n, Table.hasKey n (c.define d).value = decide (n ∈ d.name :: earlier) := by
        intro n
        rw [hasKey_define, hearlier]
        by_cases h : n = d.name
        · simp [h]
        · have hother : ¬ d.name = n := fun heq => h heq.symm
          simp [h, hother]
      rw [List.foldl_cons, ih _ _ hnext, names_cons, repeated]
      by_cases h : d.name ∈ earlier
      · have hkey : Table.hasKey d.name c.value = true := by simp [hearlier, h]
        simp [Checked.define, hkey, h]
      · have hkey : Table.hasKey d.name c.value = false := by simp [hearlier, h]
        simp [Checked.define, hkey, h]

/-- Each name that is defined again is a fault. -/
theorem faults_tabulate (ds : List (Definition α)) :
    (tabulate ds).faults = (repeated [] (names ds)).map Fault.redefined := by
  rw [tabulate, faults_foldl_define ds _ [] fun n => rfl]
  rfl

theorem faults_tabulate_eq_nil_iff (ds : List (Definition α)) :
    (tabulate ds).faults = [] ↔ (names ds).Nodup := by
  rw [faults_tabulate, List.map_eq_nil_iff, repeated_eq_nil_iff]
  simp

/-! ## The tables of a document -/

/-- Each of the four lists defines a name at most once. -/
structure Distinct (d : Document) : Prop where
  attributes : (names d.attributes).Nodup
  acls : (names d.acls).Nodup
  targets : (names d.targets).Nodup
  formulas : (names d.formulas).Nodup

theorem faults_tables_eq_nil_iff (d : Document) : d.tables.faults = [] ↔ d.Distinct := by
  simp only [tables, List.append_eq_nil_iff, faults_tabulate_eq_nil_iff]
  constructor
  · rintro ⟨⟨⟨hattributes, hacls⟩, htargets⟩, hformulas⟩
    exact ⟨hattributes, hacls, htargets, hformulas⟩
  · rintro ⟨hattributes, hacls, htargets, hformulas⟩
    exact ⟨⟨⟨hattributes, hacls⟩, htargets⟩, hformulas⟩

theorem mem_faults_tabulate_iff (ds : List (Definition α)) (f : Fault) :
    f ∈ (tabulate ds).faults ↔ ∃ name, 1 < (names ds).count name ∧ f = .redefined name := by
  have hrepeated (name : String) :
      name ∈ repeated [] (names ds) ↔ 1 < (names ds).count name := by
    simp [mem_repeated_iff]
  rw [faults_tabulate, List.mem_map]
  simp only [hrepeated, eq_comm]

/-- A name is defined again in one of the four lists. -/
def Redefines (d : Document) (name : String) : Prop :=
  1 < (names d.attributes).count name ∨ 1 < (names d.acls).count name ∨
    1 < (names d.targets).count name ∨ 1 < (names d.formulas).count name

theorem mem_faults_tables_iff (d : Document) (f : Fault) :
    f ∈ d.tables.faults ↔ ∃ name, d.Redefines name ∧ f = .redefined name := by
  simp only [tables, List.mem_append, mem_faults_tabulate_iff, Redefines, or_and_right,
    exists_or, or_assoc]

variable (d : Document) (name : String)

@[simp] theorem first?_tables_attributes :
    Table.first? name d.tables.value.attributes = named? name d.attributes :=
  first?_tabulate d.attributes name

@[simp] theorem first?_tables_acls :
    Table.first? name d.tables.value.acls = named? name d.acls :=
  first?_tabulate d.acls name

@[simp] theorem first?_tables_targets :
    Table.first? name d.tables.value.targets = named? name d.targets :=
  first?_tabulate d.targets name

@[simp] theorem first?_tables_formulas :
    Table.first? name d.tables.value.formulas = named? name d.formulas :=
  first?_tabulate d.formulas name

end Document

end AssetAccess
