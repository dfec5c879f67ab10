import Mathlib.Data.List.TakeWhile
import Worksheet.Correction
import Worksheet.Proofs.Engine.Isolation
import Worksheet.Proofs.Image.Typo

/-!
# What a journal does to a check

A call that a journal refuses stops the rule that made it, and whether a call is refused
can depend on the level and the channels of the journal. `Engine.session` is a check with
the corrections after it in which every call, also one within a rule, has this effect.

* `Journal.recordAll_eq`: a journal keeps the calls that pass (`Call.passes`) and are not
  refused, in their order;
* `Engine.hearing_stock`: none of the calls of the stock rules is refused;
* `Engine.session_stock`: with the stock rules, level and channels only decide which events
  are kept.
-/

namespace Worksheet

/-! ## Calls that pass -/

/-- Whether a call passes at a level with channels. Warnings and errors pass unless the
level is the silent one. -/
def Call.passes (level : Level) (channels : List Channel) (c : Call) : Bool :=
  match c.urgency with
  | .info => channels.contains c.logger.channel && Level.info.rank ≤ level.rank
  | .verbose => channels.contains c.logger.channel && Level.verbose.rank ≤ level.rank
  | .debug => channels.contains c.logger.channel && Level.debug.rank ≤ level.rank
  | .warning | .error => level != .silent

/-- With all channels, everything passes at the last level. -/
theorem Call.passes_debug (c : Call) : c.passes .debug Channel.all = true := by
  have hchannel : Channel.all.contains c.logger.channel = true := by
    cases c.logger.channel <;> rfl
  rw [passes, hchannel]
  cases c.urgency <;> rfl

/-- At the silent level nothing passes. -/
theorem Call.passes_silent (channels : List Channel) (c : Call) : c.passes .silent channels = false := by
  rw [passes]
  cases c.urgency <;> simp [Level.rank]

namespace Journal

theorem admits_eq_passes (j : Journal) : j.admits = Call.passes j.level j.channels := by
  funext c
  rw [admits, Call.passes]
  cases c.urgency <;> rfl

/-- The fault with which a journal refuses a call. -/
def refusal? (j : Journal) (c : Call) : Option Fault :=
  match j.call c with
  | .ok _ => none
  | .error f => some f

theorem Open.refusal?_eq_none {j : Journal} (hj : j.Open) {c : Call} (hc : c.Plain) :
    j.refusal? c = none := by
  rw [refusal?, hj.call_eq hc]

/-- Whether a call leaves an event: it passes, and it is not refused. -/
def keeps (j : Journal) (c : Call) : Bool :=
  c.passes j.level j.channels && (j.refusal? c).isNone

theorem record_eq (j : Journal) (c : Call) :
    j.record c = if j.keeps c then { j with events := j.events ++ [j.eventOf c] } else j := by
  rw [keeps, refusal?, record, ← admits_eq_passes]
  cases h : j.call c with
  | error f => simp
  | ok j' => simp [eq_of_call_eq_ok h]

/-- Whether a call is refused does not depend on the events before it. -/
theorem refusal?_events (j : Journal) (es : List Event) :
    refusal? { j with events := es } = j.refusal? := by
  funext c
  have hadmits : admits { j with events := es } c = j.admits c := rfl
  simp only [refusal?, call, hadmits]
  cases takenNames.find? c.fields.has with
  | some name => rfl
  | none =>
    cases j.admits c with
    | false => rfl
    | true =>
      cases c.urgency.levelField?.isSome && c.fields.has (lit "level") with
      | true => rfl
      | false => cases takenNames.find? j.context.has <;> rfl

theorem keeps_events (j : Journal) (es : List Event) :
    keeps { j with events := es } = j.keeps := by
  funext c
  rw [keeps, refusal?_events, keeps]

/-- A journal keeps some of the calls, in their order. What it keeps of a call does not depend
on the events before it. -/
theorem recordAll_eq (j : Journal) (cs : List Call) :
    j.recordAll cs = { j with events := j.events ++ (cs.filter j.keeps).map j.eventOf } := by
  induction cs generalizing j with
  | nil =>
    rw [List.filter_nil, List.map_nil, List.append_nil]
    rfl
  | cons c cs ih =>
    have hcons : j.recordAll (c :: cs) = (j.record c).recordAll cs := rfl
    rw [hcons, record_eq]
    cases hkeeps : j.keeps c with
    | false => rw [if_neg Bool.false_ne_true, ih, List.filter_cons_of_neg (by simp [hkeeps])]
    | true =>
      rw [if_pos rfl, ih, keeps_events, List.filter_cons_of_pos hkeeps, List.map_cons]
      exact congrArg (fun es => { j with events := es }) (List.append_assoc _ [_] _)

/-- Of calls without taken names, those are kept that pass. -/
theorem Open.recordAll_eq {j : Journal} (hj : j.Open) {cs : List Call} (hcs : ∀ c ∈ cs, c.Plain) :
    j.recordAll cs =
      { j with
        events := j.events ++ (cs.filter (Call.passes j.level j.channels)).map j.eventOf } := by
  have hkeeps : cs.filter j.keeps = cs.filter (Call.passes j.level j.channels) := by
    refine List.filter_congr fun c hc => ?_
    rw [keeps, hj.refusal?_eq_none (hcs c hc), Option.isNone_none, Bool.and_true]
  rw [Journal.recordAll_eq, hkeeps]

/-- Calls without taken names are made one after another. -/
theorem Open.foldlM_call_eq {j : Journal} (hj : j.Open) {cs : List Call} (hcs : ∀ c ∈ cs, c.Plain) :
    cs.foldlM Journal.call j = .ok (j.recordAll cs) := by
  induction cs generalizing j with
  | nil => rfl
  | cons c cs ih =>
    obtain ⟨hc, hcs⟩ := List.forall_mem_cons.mp hcs
    rw [List.foldlM_cons, bind_eq_ok]
    exact ⟨_, hj.call_eq hc, ih (hj.recordAll [c]) hcs⟩

end Journal

/-! ## Rules that are stopped by their calls -/

/-- What comes out of a rule whose calls go to a journal: it is stopped by the first call
that is refused. -/
def Outcome.hearing (j : Journal) (o : Outcome) : Outcome where
  calls := o.calls.takeWhile fun c => (j.refusal? c).isNone
  result :=
    match o.calls.findSome? j.refusal? with
    | none => o.result
    | some f => .error f

theorem Outcome.hearing_eq {j : Journal} {o : Outcome} (h : ∀ c ∈ o.calls, j.refusal? c = none) :
    o.hearing j = o := by
  have hcalls : (o.calls.takeWhile fun c => (j.refusal? c).isNone) = o.calls :=
    List.takeWhile_eq_self_iff.mpr fun c hc => Option.isNone_iff_eq_none.mpr (h c hc)
  rw [hearing, List.findSome?_eq_none_iff.mpr h, hcalls]

/-- The rule whose calls go to a journal with the name of the document. -/
def Rule.hearing (j : Journal) (r : Rule) : Rule where
  name := r.name
  run d s := (r.run d s).hearing (j.bind [(lit "document", .text d.name)])

/-- A rule all of whose calls are without taken names is never stopped by them. -/
theorem Rule.hearing_eq {j : Journal} (hj : j.Open) {r : Rule}
    (h : ∀ d s, ∀ c ∈ (r.run d s).calls, c.Plain) : r.hearing j = r := by
  have hrun (d : Document) (s : Settings) :
      (r.run d s).hearing (j.bind [(lit "document", .text d.name)]) = r.run d s :=
    Outcome.hearing_eq fun c hc => (hj.bind_document d.name).refusal?_eq_none (h d s c hc)
  rw [hearing, funext fun d => funext (hrun d)]

/-- The engine whose rules make their calls to a journal. -/
def Engine.hearing (j : Journal) (e : Engine) : Engine := { e with rules := e.rules.map (·.hearing j) }

/-! ## The calls of the stock rules -/

theorem Marks.plain_calls {as : List GradingLine} : ∀ c ∈ calls as, c.Plain := by
  refine List.forall_mem_cons.mpr ⟨Call.plain_of_names [lit "count"] rfl (by decide), ?_⟩
  refine List.forall_mem_map.mpr fun a _ => ?_
  exact Call.plain_of_names [lit "points", lit "found", lit "expected", lit "offset"] rfl (by decide)

namespace Typo

variable {t : Text} {s : Settings}

theorem plain_typoReport {p : Text} {n : Nat} {r : Report} (h : typoReport t s p n = some r) :
    r.2.Plain := by
  obtain ⟨m, -, rfl⟩ := Option.map_eq_some_iff.mp h
  exact Call.plain_of_names [lit "path", lit "typo"] rfl (by decide)

theorem plain_strayCall (p : Text) (n : Nat) : (strayCall p n).Plain :=
  Call.plain_of_names [lit "path", lit "offset"] rfl (by decide)

theorem plain_reports (images : List Image) : ∀ r ∈ reports t images s, r.2.Plain := by
  intro r hr
  rcases mem_foldl_step hr with h | ⟨p, -, h | rfl⟩
  · exact absurd h List.not_mem_nil
  · exact plain_typoReport h
  · exact plain_strayCall p _

end Typo

theorem Images.plain_countCall (images : List Image) : (countCall images).Plain :=
  Call.plain_of_names [lit "count", lit "sc_attribute"] rfl (by decide)

theorem Images.plain_calls (d : Document) (s : Settings) : ∀ c ∈ (rule.run d s).calls, c.Plain := by
  have hcalls : (rule.run d s).calls =
      countCall (Image.all d.text) :: (Typo.reports d.text (Image.all d.text) s).map (·.2) := rfl
  rw [hcalls]
  exact List.forall_mem_cons.mpr ⟨plain_countCall _, List.forall_mem_map.mpr (Typo.plain_reports _)⟩

namespace Engine

theorem plain_of_mem_stockRules {r : Rule} (hr : r ∈ stockRules) (d : Document) (s : Settings) :
    ∀ c ∈ (r.run d s).calls, c.Plain := by
  rcases List.mem_pair.mp hr with rfl | rfl
  · intro c hc
    cases hall : GradingLine.all d.text with
    | ok as =>
      have hcalls : (Marks.rule.run d s).calls = Marks.calls as := by simp only [Marks.rule, hall]
      exact Marks.plain_calls c (hcalls ▸ hc)
    | error f =>
      have hcalls : (Marks.rule.run d s).calls = [] := by simp only [Marks.rule, hall]
      exact absurd (hcalls ▸ hc) List.not_mem_nil
  · exact Images.plain_calls d s

/-- No stock rule is stopped by its calls. -/
theorem hearing_stock {j : Journal} (hj : j.Open) (s : Settings) : (stock s).hearing j = stock s := by
  have hrules : (stock s).rules.map (·.hearing j) = (stock s).rules := by
    refine (List.map_congr_left fun r hr => ?_).trans (List.map_id _)
    exact Rule.hearing_eq hj (plain_of_mem_stockRules hr)
  rw [hearing, hrules]

theorem plain_outcomeCalls (name : Text) {o : Outcome} (h : ∀ c ∈ o.calls, c.Plain) :
    ∀ c ∈ outcomeCalls name o, c.Plain := by
  rw [outcomeCalls]
  refine List.forall_mem_append.mpr
    ⟨List.forall_mem_cons.mpr ⟨plain_startedCall name, h⟩, List.forall_mem_singleton.mpr ?_⟩
  cases o.result with
  | ok ds => exact plain_completedCall name ds.length
  | error f => exact plain_failedCall name f

/-- All calls of a check by the stock rules are without taken names. -/
theorem plain_calls_stock (s : Settings) (d : Document) (r : Report) :
    ∀ c ∈ calls ((stock s).outcomes d) r, c.Plain := by
  rw [calls]
  refine List.forall_mem_append.mpr ⟨?_, List.forall_mem_singleton.mpr (plain_finishedCall _ _ _ _)⟩
  refine List.forall_mem_flatMap.mpr fun o ho => ?_
  obtain ⟨rule, hrule, rfl⟩ := List.mem_map.mp ho
  exact plain_outcomeCalls rule.name (plain_of_mem_stockRules (List.mem_of_mem_filter hrule) d s)

end Engine

/-! ## Corrections -/

namespace Correction

/-- One more correction put into a text, with its call. -/
def carry (p : Text × Journal) (c : Correction) : Except Fault (Text × Journal) :=
  (p.2.call (appliedCall c)).map fun j => (apply p.1 c, j)

/-- The corrections of findings picked and put into a text, each with its calls; a call that
is refused ends this. -/
def carryOut (t : Text) (ds : List Diagnostic) (j : Journal) :
    Except Fault ((Text × Nat) × Journal) := do
  let j ← (selectCalls ds).foldlM Journal.call j
  let p ← (backToFront (select ds)).foldlM carry (t, j)
  return ((p.1, (select ds).length), p.2)

theorem plain_appliedCall (c : Correction) : (appliedCall c).Plain :=
  Call.plain_of_names [lit "start", lit "end", lit "replacement"] rfl (by decide)

theorem plain_selectCalls (ds : List Diagnostic) : ∀ c ∈ selectCalls ds, c.Plain := by
  intro c hc
  obtain ⟨choice, -, hchoice⟩ := List.mem_filterMap.mp hc
  cases choice with
  | taken => exact nomatch hchoice
  | passed d o =>
    obtain rfl := Option.some.inj hchoice
    exact Call.plain_of_names [lit "code", lit "start", lit "end"] rfl (by decide)

theorem plain_calls (ds : List Diagnostic) : ∀ c ∈ calls ds, c.Plain :=
  List.forall_mem_append.mpr
    ⟨plain_selectCalls ds, List.forall_mem_map.mpr fun c _ => plain_appliedCall c⟩

theorem foldlM_carry_eq {j : Journal} (hj : j.Open) (t : Text) (cs : List Correction) :
    cs.foldlM carry (t, j) = .ok (cs.foldl apply t, j.recordAll (cs.map appliedCall)) := by
  induction cs generalizing t j with
  | nil => rfl
  | cons c cs ih =>
    have hstep : carry (t, j) c = .ok (apply t c, j.record (appliedCall c)) := by
      rw [carry, hj.call_eq (plain_appliedCall c)]
      rfl
    rw [List.foldlM_cons, bind_eq_ok]
    exact ⟨_, hstep, ih (hj.recordAll [appliedCall c]) _⟩

/-- No call ends it. -/
theorem carryOut_eq {j : Journal} (hj : j.Open) (t : Text) (ds : List Diagnostic) :
    carryOut t ds j = .ok (applyAll t ds, j.recordAll (calls ds)) := by
  rw [carryOut, bind_eq_ok]
  refine ⟨_, hj.foldlM_call_eq (plain_selectCalls ds), ?_⟩
  rw [foldlM_carry_eq (hj.recordAll _), calls, Journal.recordAll_append]
  rfl

end Correction

/-! ## A check with its corrections -/

namespace Engine

/-- A check, and the corrections of its findings; what a call does that is refused is not left
out. -/
def session (e : Engine) (d : Document) (moment : Moment) (duration : Binary64) (j : Journal) :
    Except Fault (Report × (Text × Nat) × Journal) := do
  let (r, j) ← (e.hearing j).check d moment duration j
  let (corrected, j) ← Correction.carryOut d.text r.diagnostics j
  return (r, corrected, j)

/-- No call ends a check by the stock rules, or its corrections. -/
theorem session_stock_eq (s : Settings) (d : Document) (moment : Moment) (duration : Binary64)
    {j : Journal} (hj : j.Open) :
    (stock s).session d moment duration j =
      .ok (((stock s).validate d moment duration j).1,
        Correction.applyAll d.text ((stock s).validate d moment duration j).1.diagnostics,
        ((stock s).validate d moment duration j).2.recordAll
          (Correction.calls ((stock s).validate d moment duration j).1.diagnostics)) := by
  rw [session, hearing_stock hj, check_eq_validate (stock s) d moment duration hj]
  refine bind_eq_ok.mpr ⟨_, rfl, ?_⟩
  exact bind_eq_ok.mpr
    ⟨_, Correction.carryOut_eq (open_validate (stock s) d moment duration j) d.text _, rfl⟩

/-- The events that a check by the stock rules leaves, and its corrections after it. -/
theorem events_session_stock (s : Settings) (d : Document) (moment : Moment) (duration : Binary64)
    {j : Journal} (hj : j.Open) {ds : List Diagnostic} :
    (((stock s).validate d moment duration j).2.recordAll (Correction.calls ds)).events =
      j.events ++
        (((calls ((stock s).outcomes d) (reportOf d ((stock s).outcomes d) moment duration)).filter
            (Call.passes j.level j.channels)).map (j.bind [(lit "document", .text d.name)]).eventOf ++
          ((Correction.calls ds).filter (Call.passes j.level j.channels)).map j.clear.eventOf) := by
  rw [(open_validate (stock s) d moment duration j).recordAll_eq (Correction.plain_calls ds),
    validate, conclude, Value.ofText_char, (hj.bind_document d.name).recordAll_eq (plain_calls_stock s d _)]
  exact List.append_assoc _ _ _

/-- With the stock rules, a check and its corrections come to their end, and what they give
depends neither on the level nor on the channels of the journal. There are calls of which a
journal keeps those that pass, in their order, and with all channels it keeps everything at
the last level. The events of the check carry the name of the document, those of the
corrections do not. -/
theorem session_stock (s : Settings) (d : Document) (moment : Moment) (duration : Binary64)
    {j : Journal} (hj : j.Open) :
    ∃ (r : Report) (corrected : Text × Nat) (cs₁ cs₂ : List Call),
      (∀ c ∈ cs₁ ++ cs₂, c.passes .debug Channel.all = true) ∧
      ∀ (level : Level) (channels : List Channel), ∃ j',
        (stock s).session d moment duration { j with level, channels } = .ok (r, corrected, j') ∧
        r = ((stock s).validate d moment duration { j with level, channels }).1 ∧
        corrected = Correction.applyAll d.text r.diagnostics ∧
        j'.events = j.events ++
          ((cs₁.filter (Call.passes level channels)).map
              (j.bind [(lit "document", .text d.name)]).eventOf ++
            (cs₂.filter (Call.passes level channels)).map j.clear.eventOf) := by
  refine ⟨reportOf d ((stock s).outcomes d) moment duration,
    Correction.applyAll d.text (reportOf d ((stock s).outcomes d) moment duration).diagnostics,
    calls ((stock s).outcomes d) (reportOf d ((stock s).outcomes d) moment duration),
    Correction.calls (reportOf d ((stock s).outcomes d) moment duration).diagnostics,
    fun c _ => c.passes_debug, fun level channels => ?_⟩
  have hj' : Journal.Open { j with level, channels } := hj
  exact ⟨_, session_stock_eq s d moment duration hj', rfl, rfl,
    events_session_stock s d moment duration hj'⟩

/-- A document with a bare path behind an annotation, and a silent journal. -/
theorem session_stock_silent :
    ∃ (r : Report) (j' : Journal),
      (stock {}).session ⟨GradingLine.canonical 2 ++ lit "a_files/1.png", lit "a.html", none⟩
        ⟨⟨2024, 1, 1⟩, 0, 0, 0, 0, none⟩ .zero { level := .silent, channels := [] } =
        .ok (r, Correction.applyAll (GradingLine.canonical 2 ++ lit "a_files/1.png") r.diagnostics, j') ∧
      j'.events = [] := by
  obtain ⟨r, corrected, cs₁, cs₂, -, hsession⟩ := session_stock {}
    ⟨GradingLine.canonical 2 ++ lit "a_files/1.png", lit "a.html", none⟩
    ⟨⟨2024, 1, 1⟩, 0, 0, 0, 0, none⟩ .zero (j := {}) fun _ _ => rfl
  obtain ⟨j', h, -, rfl, hevents⟩ := hsession .silent []
  have hnone (cs : List Call) : cs.filter (Call.passes .silent []) = [] :=
    List.filter_eq_nil_iff.mpr fun c _ => Bool.not_eq_true _ ▸ c.passes_silent []
  rw [hnone, hnone] at hevents
  exact ⟨r, j', h, hevents⟩

end Engine

end Worksheet
