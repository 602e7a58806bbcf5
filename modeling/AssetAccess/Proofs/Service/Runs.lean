import AssetAccess.Proofs.Document.Report
import AssetAccess.Service
set_option autoImplicit false

/-!
# Runs of a service

A reload installs the rules of a document or it fails, and there is nothing between the two: a
document with a single fault installs no rule (`Step.FailsWith`).  One step leaves the settings
as they are and changes the rules only if it installs some (`step_eq`).  So along a run the
active rules are those that were installed last (`run_eq`), each decision is over the rules
that are active when it is made, and a reload that fails might as well not have been asked for
(`reloads_atomic`).
-/

namespace AssetAccess.Service

/-! ## Reloads -/

/-- The step is a reload that puts rules in place: its document can be read, and resolves. -/
inductive Step.Installs : Step → List Rule → Prop where
  | document {path text : String} {d : Document} {rules : List Rule} :
      Document.parse? text = some d → d.resolve = .ok rules →
        Installs (.reload path (.ok text)) rules

/-- The step is a reload that fails, for a reason: there is no text, the text is no document, or
there is something to report on the document. -/
inductive Step.FailsWith : Step → Document.LoadError → Prop where
  | unread (path : String) (failure : File.Failure) :
      FailsWith (.reload path (.error failure)) (.unread path failure)
  | malformed {path text : String} :
      Document.parse? text = none → FailsWith (.reload path (.ok text)) .malformed
  | faulty {path text : String} {d : Document} :
      Document.parse? text = some d → d.report ≠ [] →
        FailsWith (.reload path (.ok text)) (.faulty d.report)

/-- The rules that a step puts in place. -/
def Step.installed? : Step → Option (List Rule)
  | .reload path content =>
    match Document.load path content with
    | .ok rules => some rules
    | .error _ => none
  | _ => none

/-- Why a reload fails. -/
def failure? (path : String) (content : File.Content) : Option Document.LoadError :=
  match Document.load path content with
  | .ok _ => none
  | .error e => some e

theorem load_eq_ok_iff (path : String) (content : File.Content) (rules : List Rule) :
    Document.load path content = .ok rules ↔ (Step.reload path content).Installs rules := by
  constructor
  · intro h
    cases content with
    | error failure => cases h
    | ok text =>
        cases hparse : Document.parse? text with
        | none =>
            simp only [Document.load, Document.rulesOf, hparse] at h
            cases h
        | some d =>
            simp only [Document.load, Document.rulesOf, hparse] at h
            cases hresolve : d.resolve with
            | error errors =>
                rw [hresolve] at h
                cases h
            | ok rules' =>
                rw [hresolve] at h
                cases h
                exact .document hparse hresolve
  · intro h
    cases h with
    | document hparse hresolve =>
        simp only [Document.load, Document.rulesOf, hparse, hresolve]

theorem load_eq_error_iff (path : String) (content : File.Content) (e : Document.LoadError) :
    Document.load path content = .error e ↔ (Step.reload path content).FailsWith e := by
  constructor
  · intro h
    cases content with
    | error failure =>
        cases h
        exact .unread path failure
    | ok text =>
        cases hparse : Document.parse? text with
        | none =>
            simp only [Document.load, Document.rulesOf, hparse] at h
            cases h
            exact .malformed hparse
        | some d =>
            simp only [Document.load, Document.rulesOf, hparse] at h
            cases hresolve : d.resolve with
            | ok rules =>
                rw [hresolve] at h
                cases h
            | error errors =>
                rw [hresolve] at h
                cases h
                rw [Document.resolve_eq_error_iff, Document.errors_eq_report] at hresolve
                obtain ⟨rfl, hne⟩ := hresolve
                exact .faulty hparse hne
  · intro h
    cases h with
    | unread => rfl
    | malformed hparse => simp only [Document.load, Document.rulesOf, hparse]
    | @faulty _ _ d hparse hne =>
        have hresolve : d.resolve = .error d.report := by
          rw [Document.resolve_eq_error_iff, Document.errors_eq_report]
          exact ⟨rfl, hne⟩
        simp only [Document.load, Document.rulesOf, hparse, hresolve]

theorem Step.installed?_eq_some_iff (x : Step) (rules : List Rule) :
    x.installed? = some rules ↔ x.Installs rules := by
  cases x with
  | reload path content =>
      rw [← load_eq_ok_iff, installed?]
      cases Document.load path content <;> simp
  | decide request subject now =>
      exact ⟨nofun, nofun⟩
  | search query start limit =>
      exact ⟨nofun, nofun⟩

theorem Step.installed?_eq_none_iff (x : Step) :
    x.installed? = none ↔ ∀ rules, ¬ x.Installs rules := by
  simp only [← installed?_eq_some_iff, Option.eq_none_iff_forall_ne_some, ne_eq]

/-- A reload that fails puts no rule in place. -/
theorem Step.FailsWith.installed?_eq_none {x : Step} {e : Document.LoadError}
    (h : x.FailsWith e) : x.installed? = none := by
  cases x with
  | reload path content =>
      rw [← load_eq_error_iff] at h
      rw [installed?, h]
  | decide request subject now => rfl
  | search query start limit => rfl

theorem failure?_eq_some_iff (path : String) (content : File.Content) (e : Document.LoadError) :
    failure? path content = some e ↔ (Step.reload path content).FailsWith e := by
  rw [← load_eq_error_iff, failure?]
  cases Document.load path content <;> simp

theorem failure?_eq_none_iff (path : String) (content : File.Content) :
    failure? path content = none ↔ ∃ rules, (Step.reload path content).Installs rules := by
  simp only [← load_eq_ok_iff, failure?]
  cases Document.load path content <;> simp

/-! ## One step -/

/-- The answer to a step while some rules are active. -/
def Step.answer (settings : Settings) (rules : List Rule) : Step → Answer
  | .reload path content => .reloaded (failure? path content)
  | .decide request subject now => .decided (request.decideAt rules subject now)
  | .search query start limit =>
    .found (SearchRequest.ofQuery settings.searchIndex settings.pageSize query start limit)
      (query.resultType settings.modelName)

/-- A step changes no settings, and no rules unless it puts others in place. -/
theorem step_eq (s : Service) (x : Step) :
    s.step x = (⟨s.settings, x.installed?.getD s.rules⟩, x.answer s.settings s.rules) := by
  cases x with
  | reload path content =>
      rw [step, reload, Step.installed?, Step.answer, failure?]
      cases Document.load path content <;> rfl
  | decide request subject now => rfl
  | search query start limit => rfl

/-! ## Runs -/

/-- The rules of the last step that put rules in place, or those of the start if there is no such
step. -/
inductive LastInstalled (initial : List Rule) (past : List Step) : List Rule → Prop where
  | initial : (∀ x ∈ past, ∀ rules, ¬ x.Installs rules) → LastInstalled initial past initial
  | installed {before after : List Step} {x : Step} {rules : List Rule} :
      past = before ++ x :: after → x.Installs rules →
        (∀ y ∈ after, ∀ rules, ¬ y.Installs rules) → LastInstalled initial past rules

/-- A step before the others: its rules count if the others put none in place. -/
theorem LastInstalled.cons {initial : List Rule} {x : Step} {past : List Step} {rules : List Rule}
    (h : LastInstalled (x.installed?.getD initial) past rules) :
    LastInstalled initial (x :: past) rules := by
  cases h with
  | initial hnone =>
      cases hx : x.installed? with
      | none =>
          refine .initial ?_
          rw [List.forall_mem_cons]
          exact ⟨(x.installed?_eq_none_iff).mp hx, hnone⟩
      | some rules =>
          have hpast : x :: past = [] ++ x :: past := rfl
          exact .installed hpast ((x.installed?_eq_some_iff rules).mp hx) hnone
  | @installed before after y _ hpast hinstalls hafter =>
      have hbehind : x :: past = (x :: before) ++ y :: after := by rw [hpast, List.cons_append]
      exact .installed hbehind hinstalls hafter

/-- The rules that are active after some steps. -/
def active (initial : List Rule) (past : List Step) : List Rule :=
  past.foldl (fun rules x => x.installed?.getD rules) initial

theorem active_cons (initial : List Rule) (x : Step) (past : List Step) :
    active initial (x :: past) = active (x.installed?.getD initial) past := rfl

theorem active_append (initial : List Rule) (past later : List Step) :
    active initial (past ++ later) = active (active initial past) later := List.foldl_append

/-- The active rules are those that were put in place last. -/
theorem lastInstalled_active (initial : List Rule) (past : List Step) :
    LastInstalled initial past (active initial past) := by
  induction past generalizing initial with
  | nil => exact .initial fun _ hx => absurd hx List.not_mem_nil
  | cons x past ih => exact (ih (x.installed?.getD initial)).cons

theorem active_of_not_installs {past : List Step} (h : ∀ x ∈ past, ∀ rules, ¬ x.Installs rules)
    (initial : List Rule) : active initial past = initial := by
  induction past with
  | nil => rfl
  | cons x past ih =>
      obtain ⟨hx, hpast⟩ := List.forall_mem_cons.mp h
      rw [active_cons, x.installed?_eq_none_iff.mpr hx, Option.getD_none]
      exact ih hpast

/-- No other rules were put in place last. -/
theorem LastInstalled.eq_active {initial : List Rule} {past : List Step} {rules : List Rule}
    (h : LastInstalled initial past rules) : rules = active initial past := by
  cases h with
  | initial hnone => rw [active_of_not_installs hnone]
  | @installed before after x _ hpast hx hafter =>
      rw [hpast, active_append, active_cons, (x.installed?_eq_some_iff rules).mpr hx,
        Option.getD_some, active_of_not_installs hafter]

/-- The answers to steps that follow one another. -/
def answers (settings : Settings) (rules : List Rule) : List Step → List Answer
  | [] => []
  | x :: xs => x.answer settings rules :: answers settings (x.installed?.getD rules) xs

theorem run_eq (s : Service) (steps : List Step) :
    s.run steps = (⟨s.settings, active s.rules steps⟩, answers s.settings s.rules steps) := by
  induction steps generalizing s with
  | nil => rfl
  | cons x steps ih =>
      rw [run, step_eq, active_cons, answers]
      simp only [ih]

theorem answers_append (settings : Settings) (rules : List Rule) (xs ys : List Step) :
    answers settings rules (xs ++ ys) =
      answers settings rules xs ++ answers settings (active rules xs) ys := by
  induction xs generalizing rules with
  | nil => rfl
  | cons x xs ih => rw [List.cons_append, answers, answers, ih, active_cons, List.cons_append]

theorem length_answers (settings : Settings) (rules : List Rule) (steps : List Step) :
    (answers settings rules steps).length = steps.length := by
  induction steps generalizing rules with
  | nil => rfl
  | cons x steps ih => rw [answers, List.length_cons, ih, List.length_cons]

theorem answers_getElem? (settings : Settings) (rules : List Rule) (steps : List Step) (i : Nat) :
    (answers settings rules steps)[i]? =
      steps[i]?.map (Step.answer settings (active rules (steps.take i))) := by
  induction steps generalizing rules i with
  | nil => rfl
  | cons x steps ih =>
      cases i with
      | zero => rfl
      | succ i =>
          rw [answers, List.getElem?_cons_succ, List.getElem?_cons_succ, ih, List.take_succ_cons,
            active_cons]

theorem run_getElem? {s : Service} {steps : List Step} {i : Nat} {x : Step}
    (hx : steps[i]? = some x) :
    (s.run steps).2[i]? = some (x.answer s.settings (active s.rules (steps.take i))) := by
  rw [run_eq, answers_getElem?, hx, Option.map_some]

/-- A step that puts no rules in place can be left out of a run. -/
theorem run_without {x : Step} (hx : x.installed? = none) (s : Service)
    (before after : List Step) :
    (s.run (before ++ x :: after)).1 = (s.run (before ++ after)).1 ∧
    (s.run (before ++ x :: after)).2.eraseIdx before.length = (s.run (before ++ after)).2 := by
  simp only [run_eq, active_append, active_cons, answers_append, answers, hx, Option.getD_none,
    true_and]
  rw [List.eraseIdx_append_of_length_le (Nat.le_of_eq (length_answers ..)), length_answers,
    Nat.sub_self, List.eraseIdx_cons_zero]

/-- In every run a decision is made over the rules of the last reload before it that did not
fail, or over those of the start if there is none; a search is answered from the settings alone;
a reload answers why it fails, or that it does not; one rule with a fault is enough for a
document to fail; and leaving out a reload that fails changes neither the other answers nor what
the run ends with. -/
theorem reloads_atomic (s : Service) (steps : List Step) :
    (∀ (i : Nat) request subject now, steps[i]? = some (Step.decide request subject now) →
      ∃ rules, LastInstalled s.rules (steps.take i) rules ∧
        (s.run steps).2[i]? = some (Answer.decided (request.decideAt rules subject now))) ∧
    (∀ (i : Nat) query start limit, steps[i]? = some (Step.search query start limit) →
      (s.run steps).2[i]? =
        some (Answer.found
          (SearchRequest.ofQuery s.settings.searchIndex s.settings.pageSize query start limit)
          (query.resultType s.settings.modelName))) ∧
    (∀ (i : Nat) path content, steps[i]? = some (Step.reload path content) →
      ∃ failure, (s.run steps).2[i]? = some (Answer.reloaded failure) ∧
        (∀ e, failure = some e ↔ (Step.reload path content).FailsWith e) ∧
        (failure = none ↔ ∃ rules, (Step.reload path content).Installs rules)) ∧
    (∀ path text d e, Document.parse? text = some d → e ∈ d.rules → e.report d ≠ [] →
      (Step.reload path (.ok text)).FailsWith (.faulty d.report)) ∧
    (∀ before x after e, steps = before ++ x :: after → x.FailsWith e →
      (s.run steps).1 = (s.run (before ++ after)).1 ∧
      (s.run steps).2.eraseIdx before.length = (s.run (before ++ after)).2) := by
  refine ⟨?_, ?_, ?_, ?_, ?_⟩
  · intro i request subject now hx
    exact ⟨_, lastInstalled_active s.rules (steps.take i), run_getElem? hx⟩
  · intro i query start limit hx
    exact run_getElem? hx
  · intro i path content hx
    exact ⟨failure? path content, run_getElem? hx, failure?_eq_some_iff path content,
      failure?_eq_none_iff path content⟩
  · intro path text d e hparse he hfaults
    exact .faulty hparse (Document.report_ne_nil_of_mem he hfaults)
  · rintro before x after e rfl hfails
    exact run_without hfails.installed?_eq_none s before after

/-! ## A night shift -/

/-- A document without rules. -/
def closingDocument : String := "\x7b\"AllAccessPermissionRules\":\x7b\"rules\":[]\x7d\x7d"

/-- A document in which a rule that denies everybody is followed by one without any part. -/
def brokenDocument : String :=
  "\x7b\"AllAccessPermissionRules\":\x7b\"rules\":[\x7b\"ACL\":\x7b" ++
    "\"RIGHTS\":[\"READ\"],\"ACCESS\":\"DENY\"\x7d," ++
    "\"FORMULA\":\x7b\"$boolean\":true\x7d\x7d,\x7b\x7d]\x7d\x7d"

/-- What the broken document is read as. -/
def brokenRules : Document where
  attributes := []
  acls := []
  targets := []
  formulas := []
  rules :=
    [⟨some ⟨[], none, Rights.ofList [.read], .deny⟩, none, [], [], some (.constant true), none⟩,
     ⟨none, none, [], [], none, none⟩]

set_option maxRecDepth 10000 in
theorem parse?_brokenDocument : Document.parse? brokenDocument = some brokenRules := by
  rfl

set_option maxRecDepth 10000 in
theorem closingDocument_installs (path : String) :
    (Step.reload path (.ok closingDocument)).Installs [] := by
  rw [← load_eq_ok_iff]
  rfl

/-- A service under which everybody may read the shells. -/
def openService : Service :=
  ⟨.standard, [⟨⟨.allow, Rights.ofList [.read], []⟩, [.route "/shells"], .constant true⟩]⟩

/-- A request to read the shells. -/
def shellsRequest : Request := ⟨.read, .route "/shells", []⟩

/-- The broken document is loaded, then the one without rules, then none at all; between them
somebody wants to read the shells, and in the end somebody searches. -/
def nightShift : List Step :=
  [.reload "rules.json" (.ok brokenDocument),
   .decide shellsRequest (some []) .epoch,
   .reload "rules.json" (.ok closingDocument),
   .reload "nowhere.json" (.error .notFound),
   .decide shellsRequest (some []) .epoch,
   .search ⟨none, none⟩ 0 (some 10)]

/-- The broken document is reported and might as well not have been there; the first reader is
let in under the rules of the start, the second one is not, and the search is answered. -/
theorem night_shift_answers :
    (openService.run nightShift).2[0]? =
      some (Answer.reloaded (some (.faulty [⟨some 1, .noAcl⟩, ⟨some 1, .noFormula⟩]))) ∧
    (openService.run nightShift).2[1]? = some (Answer.decided (.ok true)) ∧
    (openService.run nightShift).2[4]? = some (Answer.decided (.ok false)) ∧
    (openService.run nightShift).2[5]? =
      some (Answer.found ⟨"shells", .matchAll, 0, 10, none⟩ "AssetAdministrationShell") ∧
    (openService.run nightShift).2.eraseIdx 0 = (openService.run nightShift.tail).2 := by
  obtain ⟨hdecisions, hsearches, hreloads, hentries, hfailing⟩ :=
    reloads_atomic openService nightShift
  have hbroken := hentries "rules.json" brokenDocument brokenRules
    ⟨none, none, [], [], none, none⟩ parse?_brokenDocument (.tail _ (.head _)) nofun
  have hclosing := closingDocument_installs "rules.json"
  obtain ⟨failure, hanswer, hfailure, _⟩ := hreloads 0 "rules.json" (.ok brokenDocument) rfl
  obtain ⟨before, hbefore, hfirst⟩ := hdecisions 1 shellsRequest (some []) .epoch rfl
  obtain ⟨later, hlater, hsecond⟩ := hdecisions 4 shellsRequest (some []) .epoch rfl
  have hkept : before = openService.rules := by
    rw [hbefore.eq_active, nightShift, List.take_succ_cons, active_cons,
      hbroken.installed?_eq_none]
    rfl
  have hclosed : later = [] := by
    rw [hlater.eq_active, nightShift, List.take_succ_cons, List.take_succ_cons,
      List.take_succ_cons, active_cons, active_cons, active_cons,
      (Step.installed?_eq_some_iff _ _).mpr hclosing]
    rfl
  refine ⟨?_, ?_, ?_, ?_, ?_⟩
  · rw [hanswer, (hfailure _).mpr hbroken]
    rfl
  · rw [hfirst, hkept]
    rfl
  · rw [hsecond, hclosed]
    rfl
  · exact hsearches 5 ⟨none, none⟩ 0 (some 10) rfl
  · exact (hfailing [] _ nightShift.tail _ rfl hbroken).2

end AssetAccess.Service
