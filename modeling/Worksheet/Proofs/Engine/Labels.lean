import Worksheet.Proofs.Engine.Logging

/-!
# Events carry the name of their document

Checks are made one after another, each with the journal that the one before it left
(`Inspection.runAll`). Which rules an engine has and what comes out of them is open, and so is
what the journal is to keep during each check. A rule that one of its calls stops is a rule
with another outcome, so it needs no case of its own.

* `Journal.document_eventOf`: what an event is labelled with, whatever the call says itself;
* `Inspection.labelled_run`: one check labels its events, and forgets the document;
* `Inspection.labelled_runAll`: so does every one of several checks.
-/

namespace Worksheet

/-! ## The label -/

theorem Fields.get?_put_self (name : Text) (v : Value) (fs : Fields) :
    (fs.put name v).get? name = some v := by
  induction fs with
  | nil => simp [Fields.put, Fields.get?]
  | cons f fs ih =>
    obtain ⟨n, w⟩ := f
    rw [Fields.put]
    split
    · rename_i hn
      simp [Fields.get?, hn]
    · rename_i hn
      rw [Fields.get?, List.find?_cons_of_neg (by simpa using hn)]
      exact ih

/-- An event that is kept for a document alone is labelled with it: a field of the call that
has this name does not count, since the fields of the current document are put in last. -/
theorem Journal.document_eventOf {j : Journal} (hj : j.context = []) (name : Text) (c : Call) :
    ((j.bind [(lit "document", .text name)]).eventOf c).fields.get? (lit "document") =
      some (.text name) := by
  have hcontext : (j.bind [(lit "document", .text name)]).context =
      [(lit "document", .text name)] := by
    rw [bind, hj]
    rfl
  rw [eventOf, fieldsOf, hcontext]
  exact Fields.get?_put_self _ _ _

theorem Journal.open_of_context_eq_nil {j : Journal} (hj : j.context = []) : j.Open := by
  intro name _
  rw [hj]
  rfl

/-! ## Checks one after another -/

/-- A check that is asked for: by which engine, of which document, and what the journal is to
keep during it. -/
structure Inspection where
  engine : Engine
  document : Document
  moment : Moment
  duration : Binary64
  level : Level
  format : Text
  channels : List Channel

namespace Inspection

/-- The journal with the configuration that it has during a check. -/
def configured (i : Inspection) (j : Journal) : Journal :=
  { j with level := i.level, format := i.format, channels := i.channels }

/-- The journal during a check: it has the name of the document. -/
def bound (i : Inspection) (j : Journal) : Journal :=
  (i.configured j).bind [(lit "document", .text i.document.name)]

/-- The check, with its report and the journal after it. -/
def run (i : Inspection) (j : Journal) : Except Fault (Report × Journal) :=
  i.engine.check i.document i.moment i.duration (i.configured j)

/-- Checks one after another. For each, this gives the journal before it, its report and the
journal after it. -/
def runAll (j : Journal) : List Inspection → Except Fault (List (Journal × Report × Journal))
  | [] => .ok []
  | i :: is => do
    let (r, j') ← i.run j
    let rest ← runAll j' is
    return (j, r, j') :: rest

/-- What a check makes of the journal before it. -/
structure Labelled (i : Inspection) (before : Journal) (r : Report) (after : Journal) : Prop where
  /-- The report is the one of the engine. -/
  report : r = Engine.reportOf i.document (i.engine.outcomes i.document) i.moment i.duration
  /-- The new events are those of the calls around the rules, of the rules and of the failures
  of rules, as far as they are kept. -/
  events : after.events =
    before.events ++
      ((Engine.calls (i.engine.outcomes i.document) r).filter (i.bound before).keeps).map
        (i.bound before).eventOf
  /-- Every new event carries the name of the document. -/
  document : ∀ v ∈ after.events.drop before.events.length,
    v.fields.get? (lit "document") = some (.text i.document.name)
  /-- There is no current document afterwards. -/
  context : after.context = []

/-- One check comes to its end, labels its events and forgets the document. -/
theorem labelled_run (i : Inspection) {j : Journal} (hj : j.context = []) :
    ∃ r j', i.run j = .ok (r, j') ∧ i.Labelled j r j' := by
  have hopen : (i.configured j).Open := Journal.open_of_context_eq_nil hj
  have hrun : i.run j = .ok (i.engine.validate i.document i.moment i.duration (i.configured j)) :=
    Engine.check_eq_validate i.engine i.document i.moment i.duration hopen
  generalize hp : i.engine.validate i.document i.moment i.duration (i.configured j) = p at hrun
  have hreport : p.1 = Engine.reportOf i.document (i.engine.outcomes i.document) i.moment i.duration :=
    hp ▸ rfl
  have hevents : p.2.events = j.events ++
      ((Engine.calls (i.engine.outcomes i.document) p.1).filter (i.bound j).keeps).map
        (i.bound j).eventOf :=
    hp ▸ congrArg Journal.events (Journal.recordAll_eq (i.bound j) _)
  refine ⟨p.1, p.2, hrun, hreport, hevents, fun v hv => ?_, hp ▸ rfl⟩
  rw [hevents, List.drop_left] at hv
  obtain ⟨c, -, rfl⟩ := List.mem_map.mp hv
  exact Journal.document_eventOf hj _ c

/-- Every one of several checks comes to its end, labels its events with the name of its own
document and forgets this document, if there was no current document before the first. -/
theorem labelled_runAll {j : Journal} (hj : j.context = []) (is : List Inspection) :
    ∃ steps, runAll j is = .ok steps ∧
      List.Forall₂ (fun i step => Labelled i step.1 step.2.1 step.2.2) is steps := by
  induction is generalizing j with
  | nil => exact ⟨[], rfl, .nil⟩
  | cons i is ih =>
    obtain ⟨r, j', hrun, hlabelled⟩ := i.labelled_run hj
    obtain ⟨steps, hsteps, hall⟩ := ih hlabelled.context
    refine ⟨(j, r, j') :: steps, ?_, .cons hlabelled hall⟩
    refine bind_eq_ok.mpr ⟨(r, j'), hrun, ?_⟩
    exact bind_eq_ok.mpr ⟨steps, hsteps, rfl⟩

/-- A rule that says another name and fails, at the last level, and then a check of another
document at a lower one. -/
theorem labelled_runAll_failing :
    ∃ steps,
      runAll {}
        [⟨{ rules := [⟨lit "r", fun _ _ =>
              { calls := [⟨Logger.ofRule (lit "r"), .info, lit "seen",
                  [(lit "document", .text (lit "c.html"))]⟩]
                result := .error .numberTooLong }⟩] },
            ⟨[], lit "a.html", none⟩, ⟨⟨2024, 1, 1⟩, 0, 0, 0, 0, none⟩, .zero,
            .debug, lit "json", Channel.all⟩,
          ⟨{}, ⟨[], lit "b.html", none⟩, ⟨⟨2024, 1, 1⟩, 0, 0, 0, 0, none⟩, .zero,
            .info, lit "console", [.engine]⟩] = .ok steps ∧
      (steps.map fun step => (step.2.2.events.drop step.1.events.length).map fun v =>
          (v.event, v.fields.get? (lit "document"))) =
        [[(lit "rule_started", some (.text (lit "a.html"))),
            (lit "seen", some (.text (lit "a.html"))),
            (lit "rule_failed", some (.text (lit "a.html"))),
            (lit "validation_complete", some (.text (lit "a.html")))],
          [(lit "validation_complete", some (.text (lit "b.html")))]] := by
  refine (labelled_runAll (j := {}) rfl _).imp fun steps hsteps => ⟨hsteps.1, ?_⟩
  obtain rfl := Except.ok.inj hsteps.1
  rfl

end Inspection

end Worksheet
