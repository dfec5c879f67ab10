import Worksheet.CommandLine.Check
import Worksheet.CommandLine.Fix
import Worksheet.Proofs.CommandLine.Intake

/-!
# Commands on files

Both commands on files take in their files first, then work on the documents among them,
and tell about both at the end. What they have in common is a `Command`
(`Check.run_eq`, `Fix.run_eq`): with names that files can have, it ends as
`Command.run_of_accepted` says, and otherwise it does no work
(`Command.run_of_refused`). It gives a number unless it stops at something that cannot be
written. Its work may depend on everything but the journal, so that but for the journal a
command ends by what became of the files (`Command.alike_run`).
-/

namespace Worksheet

variable {σ ρ α : Type} [Alphabet α]

/-- Two commands end alike: with the same number, the same output, the same complaints and
the same state of the system. Their journals may differ. -/
structure Ending.Alike (a b : Ending × σ) : Prop where
  exit : a.1.exit = b.1.exit
  out : a.1.out = b.1.out
  err : a.1.err = b.1.err
  state : a.2 = b.2

theorem Ending.Alike.symm {a b : Ending × σ} (h : Alike a b) : Alike b a :=
  ⟨h.exit.symm, h.out.symm, h.err.symm, h.state.symm⟩

theorem Ending.Alike.trans {a b c : Ending × σ} (h : Alike a b) (h' : Alike b c) : Alike a c :=
  ⟨h.exit.trans h'.exit, h.out.trans h'.out, h.err.trans h'.err, h.state.trans h'.state⟩

/-- A command that works on the documents among files. Results of the work are of
type `ρ`. -/
structure Command (σ ρ α : Type) [Alphabet α] where
  work : List (Document α) → Journal → StateM σ (ρ × Journal)
  /-- The number for those who called it, given whether a file could not be read. -/
  number : Bool → ρ → Nat
  /-- What cannot be written, so that the command ends without a number. -/
  stop : ρ → Option Utf8.Unwritable
  out : ρ → List Text
  /-- The complaints about documents. -/
  err : ρ → List Text
  /-- A file that could not be read decides about the number. -/
  number_true (r : ρ) : number true r = Ending.trouble
  /-- The journal does not influence the work. -/
  work_journal (ds : List (Document α)) (j j' : Journal) (st : σ) :
    ((work ds j).run st).1.1 = ((work ds j').run st).1.1 ∧
      ((work ds j).run st).2 = ((work ds j').run st).2
  /-- Where everything is a text, the command does not stop. -/
  stop_work (h : ∀ t : Text α, t.IsText) (ds : List (Document α)) (j : Journal) (st : σ) :
    stop ((work ds j).run st).1.1 = none

namespace Command

variable (c : Command σ ρ α)

/-- How a command ends, given what became of the files and what came of its work. -/
def ending (is : List (Intake α)) (r : ρ) (j : Journal) : Ending where
  exit := match c.stop r with
    | none => .ok (c.number (is.any (·.isUnread)) r)
    | some f => .error (.notWritable f)
  out := c.out r
  err := Intake.complaints is ++ c.err r
  journal := j

/-- What comes of the work on documents, whatever the journal. -/
def result (ds : List (Document α)) (st : σ) : ρ × σ :=
  (((c.work ds {}).run st).1.1, ((c.work ds {}).run st).2)

/-- How a command ends, but for its journal, given what became of the files. -/
def endingOf (is : List (Intake α)) (st : σ) : Ending × σ :=
  match is.findSome? (·.refusal?) with
  | some f => (Ending.refused is {} f, st)
  | none => (c.ending is (c.result (Intake.documents is) st).1 {}, (c.result (Intake.documents is) st).2)

theorem endingOf_of_refused {is : List (Intake α)} {f : Fault} (h : is.findSome? (·.refusal?) = some f)
    (st : σ) : c.endingOf is st = (Ending.refused is {} f, st) := by
  unfold endingOf
  simp only [h]

theorem endingOf_of_accepted {is : List (Intake α)} (h : is.findSome? (·.refusal?) = none) (st : σ) :
    c.endingOf is st =
      (c.ending is (c.result (Intake.documents is) st).1 {}, (c.result (Intake.documents is) st).2) := by
  unfold endingOf
  simp only [h]

variable [DecidableEq α]

/-- Carries a command out. -/
def run (h : Host (StateM σ) α) (s : Settings) (names : List (Text α)) (j : Journal) :
    StateM σ Ending := do
  let is ← Intake.all h s names
  match is.findSome? (·.refusal?) with
  | some f => return Ending.refused is j f
  | none =>
    let (r, j) ← c.work (Intake.documents is) (j.recordAll (Intake.calls is))
    return c.ending is r j

variable {h : Host (StateM σ) α} {s : Settings} {names : List (Text α)} {st : σ}

/-- A command called with a name that no file can have does no work. -/
theorem run_of_refused (hq : h.Quiet) {f : Fault}
    (hf : (Intake.ofNames (h.look st) s names).findSome? (·.refusal?) = some f) (j : Journal) :
    (c.run h s names j).run st = (Ending.refused (Intake.ofNames (h.look st) s names) j f, st) := by
  rw [run, run_bind, Intake.run_all hq]
  simp only [hf]
  rfl

/-- A command called with names that files can have works on the documents. -/
theorem run_of_accepted (hq : h.Quiet)
    (hf : (Intake.ofNames (h.look st) s names).findSome? (·.refusal?) = none) (j : Journal)
    {r : ρ} {j' : Journal} {st' : σ}
    (hwork : (c.work (Intake.documents (Intake.ofNames (h.look st) s names))
      (j.recordAll (Intake.calls (Intake.ofNames (h.look st) s names)))).run st = ((r, j'), st')) :
    (c.run h s names j).run st = (c.ending (Intake.ofNames (h.look st) s names) r j', st') := by
  rw [run, run_bind, Intake.run_all hq]
  simp only [hf]
  rw [run_bind, hwork]
  rfl

/-- A command ends by what became of the files alone. -/
theorem alike_run (hq : h.Quiet) (s : Settings) (names : List (Text α)) (j : Journal) (st : σ) :
    Ending.Alike ((c.run h s names j).run st) (c.endingOf (Intake.ofNames (h.look st) s names) st) := by
  cases hf : (Intake.ofNames (h.look st) s names).findSome? (·.refusal?) with
  | some f =>
    rw [c.run_of_refused hq hf, c.endingOf_of_refused hf]
    exact ⟨rfl, rfl, rfl, rfl⟩
  | none =>
    rcases hrun : (c.work (Intake.documents (Intake.ofNames (h.look st) s names))
      (j.recordAll (Intake.calls (Intake.ofNames (h.look st) s names)))).run st with ⟨⟨r, j'⟩, st'⟩
    obtain ⟨hresult, hstate⟩ := c.work_journal (Intake.documents (Intake.ofNames (h.look st) s names))
      (j.recordAll (Intake.calls (Intake.ofNames (h.look st) s names))) {} st
    rw [hrun] at hresult hstate
    rw [c.run_of_accepted hq hf j hrun, c.endingOf_of_accepted hf, result, ← hresult, ← hstate]
    exact ⟨rfl, rfl, rfl, rfl⟩

end Command

/-! ## The two commands -/

variable (h : Host (StateM σ) α) (e : Engine α)

/-- Which report a check gives, and what it does to the system, does not depend on the
journal. -/
theorem Engine.examine_journal (d : Document α) (j j' : Journal) (st : σ) :
    ((e.examine h d j).run st).1.1 = ((e.examine h d j').run st).1.1 ∧
      ((e.examine h d j).run st).2 = ((e.examine h d j').run st).2 :=
  ⟨rfl, rfl⟩

namespace Check

theorem reports_journal (ds : List (Document α)) (j j' : Journal) (st : σ) :
    ((reports h e ds j).run st).1.1 = ((reports h e ds j').run st).1.1 ∧
      ((reports h e ds j).run st).2 = ((reports h e ds j').run st).2 := by
  induction ds generalizing j j' st with
  | nil => exact ⟨rfl, rfl⟩
  | cons d ds ih =>
    obtain ⟨hreport, hstate⟩ := Engine.examine_journal h e d j j' st
    obtain ⟨ihreports, ihstate⟩ := ih ((e.examine h d j).run st).1.2 ((e.examine h d j').run st).1.2
      ((e.examine h d j).run st).2
    simp only [reports, run_bind, run_pure]
    rw [← hreport, ← hstate]
    exact ⟨congrArg _ ihreports, ihstate⟩

/-- Texts of characters are printed as they are. -/
theorem exists_mapM_narrow {ts : List (Text α)} (h : ∀ t ∈ ts, t.IsText) :
    ∃ us, ts.mapM Alphabet.narrow = Except.ok us ∧ us.map Alphabet.embed = ts := by
  induction ts with
  | nil => exact ⟨[], rfl, rfl⟩
  | cons t ts ih =>
    obtain ⟨ht, hts⟩ := List.forall_mem_cons.mp h
    obtain ⟨u, rfl⟩ := ht
    obtain ⟨us, hus, hmap⟩ := ih hts
    refine ⟨u :: us, ?_, by rw [List.map_cons, hmap]⟩
    rw [List.mapM_cons, Alphabet.narrow_embed, hus]
    rfl

/-- A block of characters is printed before those behind it. -/
theorem exists_print_cons_eq {r : Report α} (h : ∀ t ∈ block r, t.IsText) (rs : List (Report α)) :
    ∃ us, us.map Alphabet.embed = block r ∧ (print (r :: rs)).stop = (print rs).stop ∧
      (print (r :: rs)).out = us ++ (print rs).out := by
  obtain ⟨us, hus, hmap⟩ := exists_mapM_narrow h
  rw [print, hus]
  exact ⟨us, hmap, rfl, rfl⟩

/-- Where everything is a text, all of it is printed. -/
theorem stop_printAs (h : ∀ t : Text α, t.IsText) (format : Format) (rs : List (Report α)) :
    (printAs format rs).stop = none := by
  cases format with
  | json => rfl
  | text =>
    induction rs with
    | nil => rfl
    | cons r rs ih =>
      obtain ⟨us, -, hstop, -⟩ := exists_print_cons_eq (fun t (_ : t ∈ block r) => h t) rs
      exact hstop.trans ih

/-- The command that checks documents. -/
def command (format : Format) : Command σ (List (Report α)) α where
  work := reports h e
  number unread rs :=
    if unread then Ending.trouble
    else if rs.any fun r => r.diagnostics.any (·.severity = .error) then Ending.findings
    else Ending.fine
  stop rs := (printAs format rs).stop
  out rs := (printAs format rs).out
  err rs := (printAs format rs).err
  number_true _ := rfl
  work_journal := reports_journal h e
  stop_work htext _ _ _ := stop_printAs htext format _

theorem run_eq [DecidableEq α] (format : Format) (names : List (Text α)) (j : Journal) :
    run h e format names j = (command h e format).run h e.settings names j := rfl

end Check

namespace Fix

theorem apply_journal (dryRun : Bool) (d : Document α) (j j' : Journal) (st : σ) :
    ((apply h e dryRun d j).run st).1.1 = ((apply h e dryRun d j').run st).1.1 ∧
      ((apply h e dryRun d j).run st).2 = ((apply h e dryRun d j').run st).2 :=
  ⟨rfl, rfl⟩

variable {h e} in
/-- A document that makes the command stop is the last one. -/
theorem run_applyAll_of_stopped {dryRun : Bool} {d : Document α} {j j₁ : Journal} {st st₁ : σ}
    {r : Repair α} {f : Utf8.Unwritable} (happly : (apply h e dryRun d j).run st = ((r, j₁), st₁))
    (hstop : r.stop? = some f) (ds : List (Document α)) :
    (applyAll h e dryRun (d :: ds) j).run st = (([r], j₁), st₁) := by
  rw [applyAll, run_bind, happly]
  simp only [hstop, Option.isSome_some, if_true]
  rfl

variable {h e} in
/-- After any other document the command goes on. -/
theorem run_applyAll_of_done {dryRun : Bool} {d : Document α} {ds : List (Document α)}
    {j j₁ j₂ : Journal} {st st₁ st₂ : σ} {r : Repair α} {rs : List (Repair α)}
    (happly : (apply h e dryRun d j).run st = ((r, j₁), st₁)) (hdone : r.stop? = none)
    (hrest : (applyAll h e dryRun ds j₁).run st₁ = ((rs, j₂), st₂)) :
    (applyAll h e dryRun (d :: ds) j).run st = ((r :: rs, j₂), st₂) := by
  rw [applyAll, run_bind, happly]
  simp only [hdone, Option.isSome_none, Bool.false_eq_true, if_false]
  rw [run_bind, hrest]
  rfl

variable {h e} in
/-- Documents one after the other, if none of the first ones makes the command stop. -/
theorem run_applyAll_append {dryRun : Bool} {ds ds' : List (Document α)} {j j₁ j₂ : Journal}
    {st st₁ st₂ : σ} {rs rs' : List (Repair α)}
    (hfront : (applyAll h e dryRun ds j).run st = ((rs, j₁), st₁)) (hdone : ∀ r ∈ rs, r.stop? = none)
    (hback : (applyAll h e dryRun ds' j₁).run st₁ = ((rs', j₂), st₂)) :
    (applyAll h e dryRun (ds ++ ds') j).run st = ((rs ++ rs', j₂), st₂) := by
  induction ds generalizing j st rs with
  | nil =>
    cases hfront
    exact hback
  | cons d ds ih =>
    rcases happly : (apply h e dryRun d j).run st with ⟨⟨r, j'⟩, st'⟩
    cases hstop : r.stop? with
    | some f =>
      cases (run_applyAll_of_stopped happly hstop ds).symm.trans hfront
      exact nomatch hstop.symm.trans (hdone r List.mem_cons_self)
    | none =>
      rcases hrest : (applyAll h e dryRun ds j').run st' with ⟨⟨rs₁, j₁'⟩, st₁'⟩
      cases (run_applyAll_of_done happly hstop hrest).symm.trans hfront
      exact run_applyAll_of_done happly hstop (ih hrest fun r hr => hdone r (List.mem_cons_of_mem _ hr))

theorem applyAll_journal (dryRun : Bool) (ds : List (Document α)) (j j' : Journal) (st : σ) :
    ((applyAll h e dryRun ds j).run st).1.1 = ((applyAll h e dryRun ds j').run st).1.1 ∧
      ((applyAll h e dryRun ds j).run st).2 = ((applyAll h e dryRun ds j').run st).2 := by
  induction ds generalizing j j' st with
  | nil => exact ⟨rfl, rfl⟩
  | cons d ds ih =>
    obtain ⟨hrepair, hstate⟩ := apply_journal h e dryRun d j j' st
    rcases happly : (apply h e dryRun d j).run st with ⟨⟨r, j₁⟩, st₁⟩
    rcases happly' : (apply h e dryRun d j').run st with ⟨⟨r', j₁'⟩, st₁'⟩
    rw [happly, happly'] at hrepair hstate
    obtain rfl : r = r' := hrepair
    obtain rfl : st₁ = st₁' := hstate
    cases hstop : r.stop? with
    | some f =>
      rw [run_applyAll_of_stopped happly hstop, run_applyAll_of_stopped happly' hstop]
      exact ⟨rfl, rfl⟩
    | none =>
      obtain ⟨ihrepairs, ihstate⟩ := ih j₁ j₁' st₁
      rw [run_applyAll_of_done happly hstop rfl, run_applyAll_of_done happly' hstop rfl]
      exact ⟨congrArg (r :: ·) ihrepairs, ihstate⟩

theorem stop?_tell {dryRun : Bool} {name : Text α} {applied : Nat} (h : (line dryRun name applied).IsText) :
    (tell dryRun name applied).stop? = none := by
  obtain ⟨t, ht⟩ := Alphabet.isText_iff.mp h
  rw [tell, ht]
  rfl

/-- Where everything is a text, a document does not stop the command. -/
theorem stop?_apply (htext : ∀ t : Text α, t.IsText) (dryRun : Bool) (d : Document α) (j : Journal)
    (st : σ) : ((apply h e dryRun d j).run st).1.1.stop? = none := by
  simp only [apply, run_bind, run_pure]
  rw [store]
  split
  · rw [run_bind]
    split
    · rfl
    · obtain ⟨t, ht⟩ := Alphabet.isText_iff.mp (htext _)
      rw [ht]
      exact stop?_tell (htext _)
  · exact stop?_tell (htext _)

/-- Where everything is a text, the command does not stop. -/
theorem findSome?_stop?_applyAll (htext : ∀ t : Text α, t.IsText) (dryRun : Bool)
    (ds : List (Document α)) (j : Journal) (st : σ) :
    ((applyAll h e dryRun ds j).run st).1.1.findSome? (·.stop?) = none := by
  induction ds generalizing j st with
  | nil => rfl
  | cons d ds ih =>
    rcases happly : (apply h e dryRun d j).run st with ⟨⟨r, j₁⟩, st₁⟩
    have hdone : r.stop? = none := by
      have hstop := stop?_apply h e htext dryRun d j st
      rwa [happly] at hstop
    rw [run_applyAll_of_done happly hdone rfl, List.findSome?_cons, hdone]
    exact ih j₁ st₁

/-- The command that corrects documents. -/
def command (dryRun : Bool) : Command σ (List (Repair α)) α where
  work := applyAll h e dryRun
  number unread rs := if unread || rs.any (·.isUnwritten) then Ending.trouble else Ending.fine
  stop rs := rs.findSome? (·.stop?)
  out rs := rs.filterMap (·.line?)
  err := complaints
  number_true _ := rfl
  work_journal := applyAll_journal h e dryRun
  stop_work htext := findSome?_stop?_applyAll h e htext dryRun

theorem run_eq [DecidableEq α] (dryRun : Bool) (names : List (Text α)) (j : Journal) :
    run h e dryRun names j = (command h e dryRun).run h e.settings names j := rfl

end Fix

variable [DecidableEq α]

/-- Carries a task out on files. -/
def Task.run (h : Host (StateM σ) α) (e : Engine α) (j : Journal) :
    Task → List (Text α) → StateM σ Ending
  | .check format, names => Check.run h e format names j
  | .fix dryRun, names => Fix.run h e dryRun names j

theorem Task.exists_run_eq (j : Journal) (task : Task) :
    ∃ (ρ : Type) (c : Command σ ρ α), ∀ names, task.run h e j names = c.run h e.settings names j := by
  cases task with
  | check format => exact ⟨_, Check.command h e format, fun names => Check.run_eq h e format names j⟩
  | fix dryRun => exact ⟨_, Fix.command h e dryRun, fun names => Fix.run_eq h e dryRun names j⟩

end Worksheet
