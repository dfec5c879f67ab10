import Mathlib.Data.List.Nodup
import Worksheet.Proofs.Engine.Loop

/-!
# Rules do not affect each other

An engine that was built by registering rules has every name once
(`Engine.Built.nodup_ruleNames`), so a rule that is registered again takes the
place of the one that had its name (`Engine.insert_eq`). A rule that is switched
off changes nothing (`Engine.validate_register_of_disabled`), and a rule that
fails takes only its own findings away (`Engine.validate_isolated`).
-/

namespace Worksheet.Engine

/-! ## Registering rules -/

/-- The engines that come about by registering rules. -/
inductive Built : Engine → Prop
  | new (s : Settings) : Built { settings := s }
  | register {e : Engine} (r : Rule) (he : Built e) : Built (e.register r)

theorem map_name_insert (r : Rule) (rs : List Rule) :
    (insert r rs).map (·.name) =
      if r.name ∈ rs.map (·.name) then rs.map (·.name) else rs.map (·.name) ++ [r.name] := by
  induction rs with
  | nil => rfl
  | cons q qs ih =>
    rw [insert]
    by_cases hq : q.name = r.name
    · rw [if_pos hq, if_pos (by rw [List.map_cons, hq]; exact List.mem_cons_self), List.map_cons,
        List.map_cons, hq]
    · rw [if_neg hq, List.map_cons, List.map_cons, ih]
      by_cases hmem : r.name ∈ qs.map (·.name)
      · rw [if_pos hmem, if_pos (List.mem_cons_of_mem _ hmem)]
      · have hmem' : r.name ∉ q.name :: qs.map (·.name) := fun h =>
          (List.mem_cons.mp h).elim (fun h => hq h.symm) hmem
        rw [if_neg hmem, if_neg hmem', List.cons_append]

/-- Every name stands for one rule. -/
theorem Built.nodup_ruleNames {e : Engine} (he : e.Built) : e.ruleNames.Nodup := by
  induction he with
  | new s => exact List.nodup_nil
  | @register e r _ ih =>
    rw [ruleNames, Engine.register, map_name_insert]
    split
    · exact ih
    · rename_i hr
      exact List.nodup_append.mpr ⟨ih, List.nodup_singleton _, fun a ha b hb hab =>
        hr (List.mem_singleton.mp hb ▸ hab ▸ ha)⟩

/-- A rule takes the place of the one that has its name. -/
theorem insert_eq {xs ys : List Rule} {q r : Rule} (hr : r.name = q.name)
    (hq : q.name ∉ xs.map (·.name)) : insert r (xs ++ q :: ys) = xs ++ r :: ys := by
  induction xs with
  | nil => rw [List.nil_append, insert, if_pos hr.symm, List.nil_append]
  | cons x xs ih =>
    rw [List.map_cons, List.mem_cons, not_or] at hq
    have hx : x.name ≠ r.name := fun h => hq.1 (hr ▸ h.symm)
    rw [List.cons_append, insert, if_neg hx, ih hq.2, List.cons_append]

theorem Built.rules_register {e : Engine} (he : e.Built) {xs ys : List Rule} {q r : Rule}
    (hrules : e.rules = xs ++ q :: ys) (hr : r.name = q.name) :
    (e.register r).rules = xs ++ r :: ys := by
  have hn := he.nodup_ruleNames
  rw [ruleNames, hrules, List.map_append, List.map_cons] at hn
  rw [Engine.register, hrules]
  exact insert_eq hr fun h => (List.nodup_append.mp hn).2.2 _ h _ List.mem_cons_self rfl

/-! ## Rules that are switched off -/

theorem filter_insert_of_disabled {s : Settings} {r : Rule} (hr : s.enables r.name = false)
    (rs : List Rule) :
    (insert r rs).filter (fun q => s.enables q.name) = rs.filter fun q => s.enables q.name := by
  induction rs with
  | nil => rw [insert, List.filter_cons, hr]; rfl
  | cons q qs ih =>
    rw [insert]
    split
    · rename_i hq
      rw [List.filter_cons_of_neg (by simp [hr]), List.filter_cons_of_neg (by simp [hq, hr])]
    · rw [List.filter_cons, List.filter_cons, ih]

/-- A rule that is switched off is not run: whatever it does, the report and the
journal stay the same. -/
theorem validate_register_of_disabled {e : Engine} {r : Rule} (hr : e.settings.enables r.name = false)
    (d : Document) (moment : Moment) (duration : Binary64) (j : Journal) :
    (e.register r).validate d moment duration j = e.validate d moment duration j := by
  have henabled : (e.register r).enabled = e.enabled := filter_insert_of_disabled hr e.rules
  rw [validate, validate, outcomes, outcomes, henabled]
  rfl

/-! ## Rules that fail -/

/-- The findings of a rule with their ranges, if it is run and does not fail. -/
def block (d : Document) (s : Settings) (r : Rule) : List Diagnostic :=
  (returned d s r).map (Diagnostic.locate d)

/-- The names of the rules that are run and fail. -/
def failing (d : Document) (s : Settings) (rs : List Rule) : List Text :=
  (rs.filter (fails d s)).map (·.name)

theorem diagnostics_validate (e : Engine) (d : Document) (moment : Moment) (duration : Binary64)
    (j : Journal) :
    (e.validate d moment duration j).1.diagnostics = e.rules.flatMap (block d e.settings) :=
  found_outcomes e d

/-- Every finding of a check is one of a rule that is run and does not fail, with its
range filled in. -/
theorem exists_of_mem_diagnostics {e : Engine} {d : Document} {moment : Moment} {duration : Binary64}
    {j : Journal} {x : Diagnostic} (hx : x ∈ (e.validate d moment duration j).1.diagnostics) :
    ∃ r ∈ e.rules, ∃ ds, (r.run d e.settings).result = .ok ds ∧ ∃ y ∈ ds, x = y.locate d := by
  rw [diagnostics_validate, List.mem_flatMap] at hx
  obtain ⟨r, hr, hx⟩ := hx
  obtain ⟨y, hy, rfl⟩ := List.mem_map.mp hx
  rw [returned] at hy
  split at hy
  · split at hy
    · rename_i ds hds
      exact ⟨r, hr, ds, hds, y, hy, rfl⟩
    · exact absurd hy List.not_mem_nil
  · exact absurd hy List.not_mem_nil

theorem failedRules_validate (e : Engine) (d : Document) (moment : Moment) (duration : Binary64)
    (j : Journal) :
    (e.validate d moment duration j).1.failedRules = failing d e.settings e.rules :=
  failed_outcomes e d

theorem failing_append (d : Document) (s : Settings) (xs ys : List Rule) :
    failing d s (xs ++ ys) = failing d s xs ++ failing d s ys := by
  rw [failing, List.filter_append, List.map_append]
  rfl

theorem enables_of_mem_failing {d : Document} {s : Settings} {rs : List Rule} {name : Text}
    (h : name ∈ failing d s rs) : s.enables name = true := by
  obtain ⟨r, hr, rfl⟩ := List.mem_map.mp h
  exact (Bool.and_eq_true_iff.mp (List.mem_filter.mp hr).2).1

/-- After a check there is no current document. -/
theorem open_validate (e : Engine) (d : Document) (moment : Moment) (duration : Binary64) (j : Journal) :
    (e.validate d moment duration j).2.Open := fun _ _ => rfl

/-- Rules are run one by one. In an engine that was built by registering rules,

* a check comes to its end, in whichever way the rules behave, provided that the
  fields of the current document have no names that are taken; and they have none
  after it;
* the findings are those of the rules that are run and do not fail, rule by rule,
  and the names of those that fail are noted in the same order;
* the status is "incomplete" if a rule failed, and otherwise depends on whether
  there are findings;
* a rule that is switched off is not run and changes nothing;
* if a rule fails in place of one that does not, its findings are missing and its
  name is noted, and nothing else changes. -/
theorem validate_isolated {e : Engine} (he : e.Built) (d : Document) (moment : Moment)
    (duration : Binary64) (j : Journal) :
    (j.Open → e.check d moment duration j = .ok (e.validate d moment duration j)) ∧
    (e.validate d moment duration j).2.Open ∧
    (e.validate d moment duration j).1.diagnostics = e.rules.flatMap (block d e.settings) ∧
    (e.validate d moment duration j).1.failedRules = failing d e.settings e.rules ∧
    ((e.validate d moment duration j).1.status = .incomplete ↔ failing d e.settings e.rules ≠ []) ∧
    ((e.validate d moment duration j).1.status = .issues ↔
      failing d e.settings e.rules = [] ∧ e.rules.flatMap (block d e.settings) ≠ []) ∧
    ((e.validate d moment duration j).1.status = .clean ↔
      failing d e.settings e.rules = [] ∧ e.rules.flatMap (block d e.settings) = []) ∧
    (∀ r : Rule, e.settings.enables r.name = false →
      block d e.settings r = [] ∧ r.name ∉ failing d e.settings e.rules ∧
      (e.register r).validate d moment duration j = e.validate d moment duration j) ∧
    ∀ (xs : List Rule) (q : Rule) (ys : List Rule) (r : Rule), e.rules = xs ++ q :: ys →
      r.name = q.name → e.settings.enables q.name = true →
      (∃ ds, (q.run d e.settings).result = .ok ds) → (∃ f, (r.run d e.settings).result = .error f) →
      (e.validate d moment duration j).1.diagnostics =
        xs.flatMap (block d e.settings) ++
          (block d e.settings q ++ ys.flatMap (block d e.settings)) ∧
      ((e.register r).validate d moment duration j).1.diagnostics =
        xs.flatMap (block d e.settings) ++ ys.flatMap (block d e.settings) ∧
      (e.validate d moment duration j).1.failedRules =
        failing d e.settings xs ++ failing d e.settings ys ∧
      ((e.register r).validate d moment duration j).1.failedRules =
        failing d e.settings xs ++ q.name :: failing d e.settings ys := by
  have hdiagnostics := diagnostics_validate e d moment duration j
  have hfailed := failedRules_validate e d moment duration j
  have hstatus : (e.validate d moment duration j).1.status =
      statusOf (failing d e.settings e.rules) (e.rules.flatMap (block d e.settings)) := by
    rw [← hdiagnostics, ← hfailed]
    rfl
  refine ⟨fun hj => check_eq_validate e d moment duration hj, open_validate e d moment duration j,
    hdiagnostics, hfailed, ?_, ?_, ?_, ?_, ?_⟩
  · rw [hstatus, statusOf_eq_incomplete_iff]
  · rw [hstatus, statusOf_eq_issues_iff]
  · rw [hstatus, statusOf_eq_clean_iff]
  · intro r hr
    refine ⟨?_, fun h => ?_, validate_register_of_disabled hr d moment duration j⟩
    · rw [block, returned, hr]
      rfl
    · rw [enables_of_mem_failing h] at hr
      exact absurd hr.symm Bool.false_ne_true
  · rintro xs q ys r hrules hname hq ⟨ds, hds⟩ ⟨f, hf⟩
    have hfail : failing d e.settings [q] = [] := by
      simp [failing, fails, hq, hds]
    have hfail' : failing d e.settings [r] = [q.name] := by
      simp [failing, fails, hq, hf, hname]
    have hblock' : block d e.settings r = [] := by
      simp [block, returned, hname, hq, hf]
    -- The failing rule stands where the other one stood, so the rest is the same.
    have hrules' := he.rules_register hrules hname
    have hsettings : (e.register r).settings = e.settings := rfl
    refine ⟨?_, ?_, ?_, ?_⟩
    · rw [hdiagnostics, hrules, List.flatMap_append, List.flatMap_cons]
    · rw [diagnostics_validate, hrules', hsettings, List.flatMap_append, List.flatMap_cons, hblock',
        List.nil_append]
    · rw [hfailed, hrules, failing_append, ← List.singleton_append, failing_append, hfail,
        List.nil_append]
    · rw [failedRules_validate, hrules', hsettings, failing_append, ← List.singleton_append,
        failing_append, hfail', List.singleton_append]

/-- A rule for annotations that always fails takes nothing away from the rule for
images. -/
theorem validate_isolated_stock :
    (((stock {}).register ⟨Marks.ruleName, fun _ _ => { result := .error .numberTooLong }⟩).validate
      ⟨lit "a_files/1.png", lit "a.html", none⟩ ⟨⟨2024, 1, 1⟩, 0, 0, 0, 0, none⟩ .zero {}).1.diagnostics =
      block ⟨lit "a_files/1.png", lit "a.html", none⟩ {} Images.rule := by
  have hbuilt : (stock {}).Built := .register Images.rule (.register Marks.rule (.new {}))
  obtain ⟨-, -, -, -, -, -, -, -, hfails⟩ := validate_isolated hbuilt
    ⟨lit "a_files/1.png", lit "a.html", none⟩ ⟨⟨2024, 1, 1⟩, 0, 0, 0, 0, none⟩ .zero {}
  obtain ⟨-, hdiagnostics, -, -⟩ := hfails [] Marks.rule [Images.rule]
    ⟨Marks.ruleName, fun _ _ => { result := .error .numberTooLong }⟩ rfl rfl rfl ⟨[], rfl⟩
    ⟨.numberTooLong, rfl⟩
  rw [hdiagnostics]
  exact List.append_nil _

end Worksheet.Engine
