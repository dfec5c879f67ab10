import Worksheet.Engine
import Worksheet.Proofs.Fault
import Worksheet.Proofs.Journal

/-!
# A check as a loop over the rules

`Engine.validate` says what comes out of a check as a whole. Here it happens one
rule after another (`Engine.check`): a rule that is switched off is passed over;
the run of a rule and the calls around it are an attempt, and whatever goes wrong
in it makes the rule fail; and the findings of a rule are taken over when its
attempt has come to its end.

* `Engine.next_eq_ok`: what one rule adds;
* `Engine.foldlM_next_eq_ok`: what all rules add;
* `Engine.check_eq_validate`: the check comes to its end, with the report and the
  journal of `Engine.validate`.
-/

namespace Worksheet.Engine

/-! ## The loop -/

/-- What a check has come to so far. -/
structure Progress where
  journal : Journal
  diagnostics : List Diagnostic := []
  failedRules : List Text := []

/-- The journal after an attempt to run a rule, and the findings or whatever went
wrong: the call at the start, the rule, or the call at the end. -/
def attempt (d : Document) (s : Settings) (r : Rule) (j : Journal) :
    Journal × Except Fault (List Diagnostic) :=
  match j.call (startedCall r.name) with
  | .error f => (j, .error f)
  | .ok j₁ =>
    let j₂ := j₁.recordAll (r.run d s).calls
    match (r.run d s).result with
    | .error f => (j₂, .error f)
    | .ok ds =>
      match j₂.call (completedCall r.name [(lit "diagnostics", .int ds.length)]) with
      | .error f => (j₂, .error f)
      | .ok j₃ => (j₃, .ok ds)

/-- A check after one more rule. -/
def next (d : Document) (s : Settings) (p : Progress) (r : Rule) : Except Fault Progress :=
  if s.enables r.name then
    match attempt d s r p.journal with
    | (j, .ok ds) => .ok { p with journal := j, diagnostics := p.diagnostics ++ ds }
    | (j, .error f) =>
      (j.call (failedCall r.name f)).map fun j' =>
        { p with journal := j', failedRules := p.failedRules ++ [r.name] }
  else .ok p

/-- The report at the end of a check. -/
def finalReport (d : Document) (moment : Moment) (duration : Binary64) (p : Progress) : Report :=
  let ds := Diagnostic.locateAll d p.diagnostics
  { document := d.name
    moment
    status := statusOf p.failedRules ds
    diagnostics := ds
    failedRules := p.failedRules
    duration }

/-- A check of a document: all rules, one after another, and the call that tells of
its end. -/
def check (e : Engine) (d : Document) (moment : Moment) (duration : Binary64) (j : Journal) :
    Except Fault (Report × Journal) := do
  let p ← e.rules.foldlM (next d e.settings) { journal := j.bind [(lit "document", .text d.name)] }
  let r := finalReport d moment duration p
  let j' ← p.journal.call (finishedCall r.status.name
    [(lit "diagnostics", .int r.diagnostics.length), (lit "errors", .int r.errorCount),
     (lit "warnings", .int r.warningCount)])
  return (r, j'.clear)

/-! ## What rules add -/

/-- The findings of a rule, if it is run and does not fail. -/
def returned {α : Type} [Alphabet α] (d : Document α) (s : Settings) (r : Rule α) :
    List (Diagnostic α) :=
  if s.enables r.name then
    match (r.run d s).result with
    | .ok ds => ds
    | .error _ => []
  else []

/-- Whether a rule is run and fails. -/
def fails (d : Document) (s : Settings) (r : Rule) : Bool :=
  s.enables r.name && match (r.run d s).result with
    | .ok _ => false
    | .error _ => true

/-- The calls that are made for a rule, if it is run. -/
def callsOf (d : Document) (s : Settings) (r : Rule) : List Call :=
  if s.enables r.name then outcomeCalls r.name (r.run d s) else []

/-- A check after several more rules. -/
def Progress.after (d : Document) (s : Settings) (p : Progress) (rs : List Rule) : Progress where
  journal := p.journal.recordAll (rs.flatMap (callsOf d s))
  diagnostics := p.diagnostics ++ rs.flatMap (returned d s)
  failedRules := p.failedRules ++ (rs.filter (fails d s)).map (·.name)

theorem plain_startedCall (r : Text) : (startedCall r).Plain :=
  Call.plain_of_names [lit "rule_name"] rfl (by decide)

theorem plain_completedCall (r : Text) (n : Int) :
    (completedCall r [(lit "diagnostics", .int n)]).Plain :=
  Call.plain_of_names [lit "rule_name", lit "diagnostics"] rfl (by decide)

theorem plain_failedCall (r : Text) (f : Fault) : (failedCall r f).Plain :=
  Call.plain_of_names [lit "rule_name", lit "error", lit "error_type"] rfl (by decide)

theorem plain_finishedCall (status : Text) (a b c : Int) :
    (finishedCall status [(lit "diagnostics", .int a), (lit "errors", .int b),
      (lit "warnings", .int c)]).Plain :=
  Call.plain_of_names [lit "status", lit "diagnostics", lit "errors", lit "warnings"] rfl (by decide)

/-- What is made of the journal and of the outcome by an attempt that none of the
calls around the rule ends. -/
theorem attempt_eq {d : Document} {s : Settings} {r : Rule} {j : Journal} (hj : j.Open) :
    attempt d s r j =
      match (r.run d s).result with
      | .error f => (j.recordAll (startedCall r.name :: (r.run d s).calls), .error f)
      | .ok ds => (j.recordAll (outcomeCalls r.name (r.run d s)), .ok ds) := by
  have hopen : ((j.record (startedCall r.name)).recordAll (r.run d s).calls).Open :=
    hj.recordAll (startedCall r.name :: (r.run d s).calls)
  rw [attempt, hj.call_eq (plain_startedCall r.name)]
  cases hr : (r.run d s).result with
  | error f => rfl
  | ok ds =>
    simp only [hopen.call_eq (plain_completedCall r.name ds.length), outcomeCalls, hr,
      Journal.recordAll_append]
    rfl

/-- What one rule adds: its calls, and its findings or its name. -/
theorem next_eq_ok {d : Document} {s : Settings} {p : Progress} (hp : p.journal.Open) (r : Rule) :
    next d s p r = .ok (p.after d s [r]) := by
  rw [next, Progress.after, List.flatMap_singleton, List.flatMap_singleton]
  cases he : s.enables r.name with
  | false => simp [callsOf, returned, fails, he, Journal.recordAll]
  | true =>
    rw [if_pos rfl, attempt_eq hp]
    cases hr : (r.run d s).result with
    | error f =>
      have hopen := hp.recordAll (startedCall r.name :: (r.run d s).calls)
      simp only [hopen.call_eq (plain_failedCall r.name f), callsOf, returned, fails, he, hr, if_true,
        outcomeCalls, Journal.recordAll_append, List.append_nil, List.filter_cons_of_pos, Bool.and_self]
      rfl
    | ok ds => simp [callsOf, returned, fails, he, hr]

theorem Progress.after_cons (d : Document) (s : Settings) (p : Progress) (r : Rule) (rs : List Rule) :
    p.after d s (r :: rs) = (p.after d s [r]).after d s rs := by
  have hcons : r :: rs = [r] ++ rs := rfl
  simp only [Progress.after, hcons, List.flatMap_append, Journal.recordAll_append, List.filter_append,
    List.map_append, List.append_assoc]

/-- What all rules add, one after another. -/
theorem foldlM_next_eq_ok {d : Document} {s : Settings} {p : Progress} (hp : p.journal.Open)
    (rs : List Rule) : rs.foldlM (next d s) p = .ok (p.after d s rs) := by
  induction rs generalizing p with
  | nil =>
    rw [List.foldlM_nil, Progress.after]
    simp [Journal.recordAll]
    rfl
  | cons r rs ih =>
    have hopen : (p.after d s [r]).journal.Open := hp.recordAll _
    rw [List.foldlM_cons, next_eq_ok hp, bind_eq_ok]
    exact ⟨_, rfl, by rw [ih hopen, ← Progress.after_cons]⟩

/-! ## The whole check -/

/-- What is made of the outcomes of the rules that are run, rule by rule. -/
theorem flatMap_outcomes {α β : Type} [Alphabet α] (e : Engine α) (d : Document α)
    (f : Text × Outcome α → List β) :
    (e.outcomes d).flatMap f =
      e.rules.flatMap fun r =>
        if e.settings.enables r.name then f (r.name, r.run d e.settings) else [] := by
  rw [outcomes, enabled, List.flatMap_map]
  induction e.rules with
  | nil => rfl
  | cons r rs ih =>
    rw [List.flatMap_cons, List.filter_cons]
    split
    · rw [List.flatMap_cons, ih]
    · rw [ih, List.nil_append]

theorem found_outcomes {α : Type} [Alphabet α] (e : Engine α) (d : Document α) :
    found d (e.outcomes d) =
      e.rules.flatMap fun r => Diagnostic.locateAll d (returned d e.settings r) := by
  rw [found, flatMap_outcomes]
  congr 1
  funext r
  rw [returned]
  split
  · cases (r.run d e.settings).result <;> rfl
  · rfl

theorem failed_outcomes (e : Engine) (d : Document) :
    failed (e.outcomes d) = (e.rules.filter (fails d e.settings)).map (·.name) := by
  rw [failed, outcomes, enabled, List.filterMap_map]
  induction e.rules with
  | nil => rfl
  | cons r rs ih =>
    rw [List.filter_cons, List.filter_cons]
    cases he : e.settings.enables r.name with
    | false => simpa [fails, he] using ih
    | true =>
      cases hr : (r.run d e.settings).result with
      | error f => simpa [fails, he, hr] using ih
      | ok ds => simpa [fails, he, hr] using ih

theorem statusOf_eq_incomplete_iff {failed : List Text} {ds : List Diagnostic} :
    statusOf failed ds = .incomplete ↔ failed ≠ [] := by
  cases failed <;> cases ds <;> simp [statusOf]

theorem statusOf_eq_issues_iff {failed : List Text} {ds : List Diagnostic} :
    statusOf failed ds = .issues ↔ failed = [] ∧ ds ≠ [] := by
  cases failed <;> cases ds <;> simp [statusOf]

theorem statusOf_eq_clean_iff {failed : List Text} {ds : List Diagnostic} :
    statusOf failed ds = .clean ↔ failed = [] ∧ ds = [] := by
  cases failed <;> cases ds <;> simp [statusOf]

/-- The report at the end of the loop is the one that `validate` gives. -/
theorem finalReport_after (e : Engine) (d : Document) (moment : Moment) (duration : Binary64)
    (j : Journal) :
    finalReport d moment duration (Progress.after d e.settings { journal := j } e.rules) =
      reportOf d (e.outcomes d) moment duration := by
  have hfound : Diagnostic.locateAll d (e.rules.flatMap (returned d e.settings)) =
      found d (e.outcomes d) := by
    rw [found_outcomes, Diagnostic.locateAll, List.map_flatMap]
    rfl
  rw [finalReport, reportOf, Progress.after, ← hfound, failed_outcomes]
  rfl

/-- A check comes to its end, with the report and the journal of `validate`. -/
theorem check_eq_validate (e : Engine) (d : Document) (moment : Moment) (duration : Binary64)
    {j : Journal} (hj : j.Open) :
    e.check d moment duration j = .ok (e.validate d moment duration j) := by
  have hopen := (hj.bind_document d.name).recordAll (e.rules.flatMap (callsOf d e.settings))
  refine bind_eq_ok.mpr ⟨_, foldlM_next_eq_ok (hj.bind_document d.name) e.rules, ?_⟩
  rw [finalReport_after]
  refine bind_eq_ok.mpr ⟨_, hopen.call_eq (plain_finishedCall _ _ _ _), ?_⟩
  rw [validate, conclude, calls, Journal.recordAll_append, flatMap_outcomes]
  rfl

end Worksheet.Engine
