import Mathlib.Data.List.Flatten
import Mathlib.Data.List.Perm.Basic
import Worksheet.Proofs.CommandLine.Command
import Worksheet.Proofs.Engine.Embedding

/-!
# What checking files tells

Checking changes no file. How it ends follows from the files that are no texts and from
the errors in the documents; what it prints is one block after another, and the block of
a file depends on nothing but this file (`Check.run_tells`). All files are read before
the first document is checked, so neither a file that cannot be read nor a rule that
fails stands between a document and its block.

A name may hold bytes that are no text, and then so does every block with this name: the
command prints the blocks up to the first such one and stops there, which it does for no
other reason if its engine is a stock engine (`Check.exists_unprintable_stock_iff`).

* `Host.Steady` is what is asked of the host;
* `Check.Shows` tells what is printed about a file, and `Check.Tells` what the whole
  command tells; `Check.Unprintable` is a file whose block cannot be printed.
-/

namespace Worksheet

variable {σ φ α : Type} [DecidableEq α] [Alphabet α]

/-- A host on which neither reading files nor doing a piece of work changes them. Its
clock may go on meanwhile. -/
structure Host.Steady (h : Host (StateM σ) α) (files : σ → φ) : Prop extends h.Quiet where
  worked {β : Type} (work : Unit → β) (st : σ) : ((h.timed work).run st).1.1 = work ()
  kept {β : Type} (work : Unit → β) (st : σ) : files ((h.timed work).run st).2 = files st

theorem Files.steady_host {κ : Type} [DecidableEq κ] [Naming α κ] (moment : Moment) :
    (Files.host moment : Host (StateM (Files κ)) α).Steady id :=
  { Files.quiet_host moment with worked := fun _ _ => rfl, kept := fun _ _ => rfl }

variable {h : Host (StateM σ) α} {files : σ → φ}

/-- Checking a document leaves files alone and gives the report of the engine. -/
theorem Engine.exists_examine_eq (hs : h.Steady files) (e : Engine α) (d : Document α) (j : Journal)
    (st : σ) : ∃ moment duration j' st',
      (e.examine h d j).run st = ((Engine.reportOf d (e.outcomes d) moment duration, j'), st') ∧
        files st' = files st := by
  have hworked := hs.worked (fun _ => e.outcomes d) st
  have hkept := hs.kept (fun _ => e.outcomes d) st
  rcases hrun : (h.timed fun _ => e.outcomes d).run st with ⟨⟨os, moment, duration⟩, st'⟩
  rw [hrun] at hworked hkept
  obtain rfl : os = e.outcomes d := hworked
  refine ⟨moment, duration, (Engine.conclude d (e.outcomes d) moment duration j).2, st', ?_, hkept⟩
  rw [examine, run_bind, hrun, run_pure]
  rfl

namespace Check

/-! ## Reports -/

/-- What an engine finds in a document. -/
def findings (e : Engine α) (d : Document α) : List (Diagnostic α) := Engine.found d (e.outcomes d)

omit [DecidableEq α] in
theorem diagnostics_validate (e : Engine α) (d : Document α) (moment : Moment) (duration : Binary64)
    (j : Journal) : (e.validate d moment duration j).1.diagnostics = findings e d := rfl

/-- A report on a document with the findings of an engine. -/
structure Reported (e : Engine α) (d : Document α) (r : Report α) : Prop where
  document : r.document = d.name
  diagnostics : r.diagnostics = findings e d

/-- The reports on documents, one after the other. -/
theorem exists_reports_eq (hs : h.Steady files) (e : Engine α) (ds : List (Document α)) (j : Journal)
    (st : σ) : ∃ rs j' st', (reports h e ds j).run st = ((rs, j'), st') ∧
      files st' = files st ∧ List.Forall₂ (Reported e) ds rs := by
  induction ds generalizing j st with
  | nil => exact ⟨[], j, st, rfl, rfl, .nil⟩
  | cons d ds ih =>
    obtain ⟨moment, duration, j₁, st₁, hexamine, hkept₁⟩ := Engine.exists_examine_eq hs e d j st
    obtain ⟨rs, j₂, st₂, hreports, hkept₂, hrs⟩ := ih j₁ st₁
    refine ⟨Engine.reportOf d (e.outcomes d) moment duration :: rs, j₂, st₂, ?_, hkept₂.trans hkept₁,
      .cons ⟨rfl, rfl⟩ hrs⟩
    rw [reports, run_bind, hexamine, run_bind, hreports, run_pure]

/-! ## Blocks -/

section

omit [DecidableEq α]

variable {e : Engine α} {d : Document α} {ds : List (Document α)} {r : Report α} {rs : List (Report α)}

/-- The block of a document. -/
def blockOf (e : Engine α) (d : Document α) : List (Text α) :=
  if findings e d = [] then [] else [Diagnostic.lines d.name (findings e d)]

theorem mem_blockOf_iff {t : Text α} :
    t ∈ blockOf e d ↔ findings e d ≠ [] ∧ t = Diagnostic.lines d.name (findings e d) := by
  rw [blockOf]
  split
  · rename_i h
    exact ⟨nofun, fun hne => absurd h hne.1⟩
  · rename_i h
    rw [List.mem_singleton]
    exact ⟨fun ht => ⟨h, ht⟩, fun ht => ht.2⟩

theorem block_eq (hr : Reported e d r) : block r = blockOf e d := by
  rw [block, blockOf, hr.document, hr.diagnostics]
  simp only [List.isEmpty_iff]

/-- Blocks of characters are printed one after the other. -/
theorem map_out_print (hrs : List.Forall₂ (Reported e) ds rs)
    (htext : ∀ d ∈ ds, ∀ t ∈ blockOf e d, t.IsText) :
    (print rs).stop = none ∧ (print rs).out.map Alphabet.embed = ds.flatMap (blockOf e) := by
  induction hrs with
  | nil => exact ⟨rfl, rfl⟩
  | cons hr _ ih =>
    obtain ⟨hd, hds⟩ := List.forall_mem_cons.mp htext
    obtain ⟨hstop, hout⟩ := ih hds
    rw [← block_eq hr] at hd
    obtain ⟨us, hmap, hsame, happend⟩ := exists_print_cons_eq hd _
    refine ⟨hsame.trans hstop, ?_⟩
    rw [happend, List.map_append, hmap, hout, List.flatMap_cons, block_eq hr]

/-- A block that is not made of characters is where the command stops. -/
theorem map_out_print_of_error {ds' : List (Document α)} {f : Utf8.Unwritable}
    (hrs : List.Forall₂ (Reported e) (ds ++ d :: ds') rs) (htext : ∀ d ∈ ds, ∀ t ∈ blockOf e d, t.IsText)
    (hfound : findings e d ≠ [])
    (hblock : Alphabet.narrow (Diagnostic.lines d.name (findings e d)) = .error f) :
    (print rs).stop = some f ∧ (print rs).out.map Alphabet.embed = ds.flatMap (blockOf e) := by
  induction ds generalizing rs with
  | nil =>
    obtain _ | @⟨_, r, _, _, hr, -⟩ := hrs
    have hmapM : (block r).mapM Alphabet.narrow = Except.error f := by
      rw [block_eq hr, blockOf, if_neg hfound, List.mapM_cons, hblock]
      rfl
    rw [print, hmapM]
    exact ⟨rfl, rfl⟩
  | cons d' ds ih =>
    obtain _ | ⟨hr, hrs⟩ := hrs
    obtain ⟨hd, hds⟩ := List.forall_mem_cons.mp htext
    obtain ⟨hstop, hout⟩ := ih hrs hds
    rw [← block_eq hr] at hd
    obtain ⟨us, hmap, hsame, happend⟩ := exists_print_cons_eq hd _
    refine ⟨hsame.trans hstop, ?_⟩
    rw [happend, List.map_append, hmap, hout, List.flatMap_cons, block_eq hr]

end

/-- What is printed about the file with a name: the list of findings of the document that
it holds, if there are any, and nothing otherwise. -/
inductive Shows (look : Text α → Except FileProblem (List UInt8)) (e : Engine α) (name : Text α) :
    List Text → Prop where
  | block {d : Document α} {t : Text} (named : d.name = name) (holds : Intake.Holds look e.settings d)
      (found : findings e d ≠ [])
      (text : Diagnostic.lines d.name (findings e d) = Alphabet.embed t) : Shows look e name [t]
  | nothing (clean : ∀ d, d.name = name → Intake.Holds look e.settings d → findings e d = []) :
      Shows look e name []

/-- The list of findings about the file with a name holds something that is no character,
which cannot be printed. -/
structure Unprintable (look : Text α → Except FileProblem (List UInt8)) (e : Engine α) (d : Document α)
    (f : Utf8.Unwritable) : Prop where
  holds : Intake.Holds look e.settings d
  found : findings e d ≠ []
  error : Alphabet.narrow (Diagnostic.lines d.name (findings e d)) = .error f

/-- All that is to be printed about files can be printed. -/
def Printable (look : Text α → Except FileProblem (List UInt8)) (e : Engine α) (names : List (Text α)) :
    Prop :=
  ∀ d f, d.name ∈ names → ¬ Unprintable look e d f

variable {look : Text α → Except FileProblem (List UInt8)} {e : Engine α} {names : List (Text α)}

/-- A stock engine writes nothing into the list of findings that is no character but the name
of the file. -/
theorem exists_unprintable_stock_iff {s : Settings} {d : Document α} :
    (∃ f, Unprintable look (Engine.stock s) d f) ↔
      Intake.Holds look s d ∧ findings (Engine.stock s) d ≠ [] ∧ ¬ d.name.IsText := by
  have hlines (hfound : findings (Engine.stock s) d ≠ []) :
      (Diagnostic.lines d.name (findings (Engine.stock s) d)).IsText ↔ d.name.IsText := by
    constructor
    · intro htext
      obtain ⟨x, xs, hxs⟩ := List.exists_cons_of_ne_nil hfound
      obtain ⟨t, ht⟩ := Diagnostic.exists_lines_cons_eq d.name x xs
      rw [hxs, ht] at htext
      exact Alphabet.isText_of_append htext
    · rintro ⟨t, ht⟩
      have hd : d = Document.embed ⟨d.text, t, d.languageId⟩ := by
        rw [Document.embed, ← ht]
      rw [findings, hd, Engine.found_embed]
      exact ⟨_, Diagnostic.lines_embed t _⟩
  constructor
  · rintro ⟨f, hholds, hfound, hf⟩
    refine ⟨hholds, hfound, fun htext => ?_⟩
    obtain ⟨t, ht⟩ := Alphabet.isText_iff.mp ((hlines hfound).mpr htext)
    exact nomatch ht.symm.trans hf
  · rintro ⟨hholds, hfound, htext⟩
    obtain ⟨f, hf⟩ := Alphabet.exists_of_not_isText (mt (hlines hfound).mp htext)
    exact ⟨f, hholds, hfound, hf⟩

theorem Printable.isText (h : Printable look e names) :
    ∀ d ∈ Intake.documents (Intake.ofNames look e.settings names), ∀ t ∈ blockOf e d, t.IsText := by
  intro d hd t ht
  obtain ⟨hnamed, hholds⟩ := Intake.mem_documents.mp hd
  obtain ⟨hfound, rfl⟩ := mem_blockOf_iff.mp ht
  by_contra hno
  obtain ⟨f, hf⟩ := Alphabet.exists_of_not_isText hno
  exact h d f hnamed ⟨hholds, hfound, hf⟩

/-- The blocks of files that can be printed. -/
theorem exists_shows (h : Printable look e names) :
    ∃ bs, List.Forall₂ (Shows look e) names bs ∧
      bs.flatten.map Alphabet.embed =
        (Intake.documents (Intake.ofNames look e.settings names)).flatMap (blockOf e) := by
  induction names with
  | nil => exact ⟨[], .nil, rfl⟩
  | cons n names ih =>
    obtain ⟨bs, hbs, hmap⟩ := ih fun d f hd => h d f (List.mem_cons_of_mem n hd)
    have hcons : Intake.ofNames look e.settings (n :: names) =
        Intake.of e.settings n (look n) :: Intake.ofNames look e.settings names := rfl
    by_cases hdocument : ∃ d, Intake.of e.settings n (look n) = .document d
    · obtain ⟨d, hd⟩ := hdocument
      obtain ⟨hname, hholds⟩ := Intake.of_eq_document_iff.mp hd
      have hdocuments : Intake.documents (Intake.ofNames look e.settings (n :: names)) =
          d :: Intake.documents (Intake.ofNames look e.settings names) := by
        rw [hcons, hd]
        rfl
      rw [hdocuments, List.flatMap_cons, ← hmap]
      by_cases hfound : findings e d = []
      · refine ⟨[] :: bs, .cons (.nothing fun d' hname' hholds' => ?_) hbs, ?_⟩
        · exact hholds'.eq hholds (hname'.trans hname.symm) ▸ hfound
        · rw [blockOf, if_pos hfound]
          rfl
      · cases hnarrow : Alphabet.narrow (Diagnostic.lines d.name (findings e d)) with
        | error f => exact absurd ⟨hholds, hfound, hnarrow⟩ (h d f (hname ▸ List.mem_cons_self))
        | ok t =>
          have htext := Alphabet.narrow_eq_ok_iff.mp hnarrow
          refine ⟨[t] :: bs, .cons (.block hname hholds hfound htext) hbs, ?_⟩
          rw [blockOf, if_neg hfound, htext]
          rfl
    · have hdocuments : Intake.documents (Intake.ofNames look e.settings (n :: names)) =
          Intake.documents (Intake.ofNames look e.settings names) := by
        rw [hcons]
        refine List.filterMap_cons_none ?_
        split
        · rename_i d hd
          exact absurd ⟨d, hd⟩ hdocument
        · rfl
      refine ⟨[] :: bs, .cons (.nothing fun d hname hholds => ?_) hbs, by rw [hdocuments, ← hmap]; rfl⟩
      exact absurd ⟨d, Intake.of_eq_document_iff.mpr ⟨hname, hholds⟩⟩ hdocument

/-! ## The whole command -/

/-- A document among files has an error. -/
def HasErrors (look : Text α → Except FileProblem (List UInt8)) (e : Engine α) (names : List (Text α)) :
    Prop :=
  ∃ d, d.name ∈ names ∧ Intake.Holds look e.settings d ∧ ∃ x ∈ findings e d, x.severity = .error

/-- What the command tells about files by its number and its output. -/
structure Tells (look : Text α → Except FileProblem (List UInt8)) (e : Engine α) (names : List (Text α))
    (format : Format) (ending : Ending) : Prop where
  /-- Files that are no texts come first. -/
  trouble : ending.exit = .ok 2 ↔ ∃ n ∈ names, ¬ Intake.HasText look n
  /-- Errors come next. -/
  errors : ending.exit = .ok 1 ↔ (∀ n ∈ names, Intake.HasText look n) ∧ HasErrors look e names
  /-- There is no other ending than these three. -/
  fine : ending.exit = .ok 0 ↔ (∀ n ∈ names, Intake.HasText look n) ∧ ¬ HasErrors look e names
  /-- The blocks stand in the order of the files. -/
  blocks : format = .text → ∃ bs, List.Forall₂ (Shows look e) names bs ∧ ending.out = bs.flatten

/-- The command stops at something that cannot be printed, behind the blocks of the files
before. -/
structure Stops (look : Text α → Except FileProblem (List UInt8)) (e : Engine α)
    (before : List (Text α)) (f : Utf8.Unwritable) (ending : Ending) : Prop where
  exit : ending.exit = .error (.notWritable f)
  blocks : ∃ bs, List.Forall₂ (Shows look e) before bs ∧ ending.out = bs.flatten

omit [DecidableEq α] in
theorem any_error_eq {ds : List (Document α)} {rs : List (Report α)}
    (hrs : List.Forall₂ (Reported e) ds rs) :
    (rs.any fun r => r.diagnostics.any (·.severity = .error)) =
      ds.any fun d => (findings e d).any (·.severity = .error) := by
  induction hrs with
  | nil => rfl
  | cons hr _ ih => rw [List.any_cons, List.any_cons, hr.diagnostics, ih]

theorem any_error_iff {rs : List (Report α)}
    (hrs : List.Forall₂ (Reported e) (Intake.documents (Intake.ofNames look e.settings names)) rs) :
    (rs.any fun r => r.diagnostics.any (·.severity = .error)) = true ↔ HasErrors look e names := by
  rw [any_error_eq hrs, List.any_eq_true, HasErrors]
  refine exists_congr fun d => ?_
  rw [Intake.mem_documents, List.any_eq_true, and_assoc]
  simp only [decide_eq_true_eq]

omit [DecidableEq α] in
theorem exitCode_eq_trouble_iff (is : List (Intake α)) (rs : List (Report α)) :
    exitCode is rs = 2 ↔ is.any (·.isUnread) = true := by
  rw [exitCode]
  cases is.any (·.isUnread) with
  | true => exact ⟨fun _ => rfl, fun _ => rfl⟩
  | false =>
    cases rs.any fun r => r.diagnostics.any (·.severity = .error) with
    | true => exact ⟨nofun, nofun⟩
    | false => exact ⟨nofun, nofun⟩

omit [DecidableEq α] in
theorem exitCode_eq_findings_iff (is : List (Intake α)) (rs : List (Report α)) :
    exitCode is rs = 1 ↔ ¬ is.any (·.isUnread) = true ∧
      (rs.any fun r => r.diagnostics.any (·.severity = .error)) = true := by
  rw [exitCode]
  cases is.any (·.isUnread) with
  | true => exact ⟨nofun, fun h => absurd rfl h.1⟩
  | false =>
    cases rs.any fun r => r.diagnostics.any (·.severity = .error) with
    | true => exact ⟨fun _ => ⟨nofun, rfl⟩, fun _ => rfl⟩
    | false => exact ⟨nofun, nofun⟩

omit [DecidableEq α] in
theorem exitCode_eq_fine_iff (is : List (Intake α)) (rs : List (Report α)) :
    exitCode is rs = 0 ↔ ¬ is.any (·.isUnread) = true ∧
      ¬ (rs.any fun r => r.diagnostics.any (·.severity = .error)) = true := by
  rw [exitCode]
  cases is.any (·.isUnread) with
  | true => exact ⟨nofun, fun h => absurd rfl h.1⟩
  | false =>
    cases rs.any fun r => r.diagnostics.any (·.severity = .error) with
    | true => exact ⟨nofun, fun h => absurd rfl h.2⟩
    | false => exact ⟨fun _ => ⟨nofun, nofun⟩, fun _ => rfl⟩

/-- What is printed is made of the blocks of the files. -/
theorem exists_print_eq {rs : List (Report α)}
    (hrs : List.Forall₂ (Reported e) (Intake.documents (Intake.ofNames look e.settings names)) rs)
    (hprintable : Printable look e names) :
    (print rs).stop = none ∧ ∃ bs, List.Forall₂ (Shows look e) names bs ∧ (print rs).out = bs.flatten := by
  obtain ⟨hstop, hout⟩ := map_out_print hrs hprintable.isText
  obtain ⟨bs, hbs, hmap⟩ := exists_shows hprintable
  exact ⟨hstop, bs, hbs, Alphabet.embed_injective.list_map (hout.trans hmap.symm)⟩

theorem tells_ending (hgood : ∀ n ∈ names, Intake.Accepts look n) {rs : List (Report α)}
    (hrs : List.Forall₂ (Reported e) (Intake.documents (Intake.ofNames look e.settings names)) rs)
    {format : Format} (hprintable : format = .text → Printable look e names) (j : Journal) :
    Tells look e names format (ending format (Intake.ofNames look e.settings names) rs j) := by
  have herror := any_error_iff hrs
  have htext : ¬ (Intake.ofNames look e.settings names).any (·.isUnread) = true ↔
      ∀ n ∈ names, Intake.HasText look n := by
    rw [Intake.any_isUnread_iff hgood, not_not]
  have hstop : (printAs format rs).stop = none := by
    cases format with
    | text => exact (exists_print_eq hrs (hprintable rfl)).1
    | json => rfl
  have hexit (k : Nat) : (ending format (Intake.ofNames look e.settings names) rs j).exit = .ok k ↔
      exitCode (Intake.ofNames look e.settings names) rs = k := by
    rw [ending]
    simp only [hstop]
    exact ⟨Except.ok.inj, congrArg Except.ok⟩
  refine ⟨?_, ?_, ?_, ?_⟩
  · rw [hexit, exitCode_eq_trouble_iff, Intake.any_isUnread_iff hgood]
    simp only [not_forall, exists_prop]
  · rw [hexit, exitCode_eq_findings_iff, htext, herror]
  · rw [hexit, exitCode_eq_fine_iff, htext, herror]
  · rintro rfl
    exact (exists_print_eq hrs (hprintable rfl)).2

/-- The first file whose block cannot be printed is where the command stops. -/
theorem stops_ending {before after : List (Text α)} {d : Document α} {f : Utf8.Unwritable}
    {rs : List (Report α)}
    (hrs : List.Forall₂ (Reported e)
      (Intake.documents (Intake.ofNames look e.settings (before ++ d.name :: after))) rs)
    (hprintable : Printable look e before) (hd : Unprintable look e d f) (is : List (Intake α))
    (j : Journal) : Stops look e before f (ending .text is rs j) := by
  rw [Intake.documents_append_cons hd.holds] at hrs
  obtain ⟨hstop, hout⟩ := map_out_print_of_error hrs hprintable.isText hd.found hd.error
  obtain ⟨bs, hbs, hmap⟩ := exists_shows hprintable
  refine ⟨?_, bs, hbs, Alphabet.embed_injective.list_map (hout.trans hmap.symm)⟩
  have hprinted : (printAs .text rs).stop = some f := hstop
  rw [ending]
  simp only [hprinted]

/-- Only which files there are matters to the number, neither their order nor the format. -/
theorem Tells.exit_eq {names' : List (Text α)} {format format' : Format} {ending ending' : Ending}
    (ht : Tells look e names format ending) (ht' : Tells look e names' format' ending')
    (hsame : ∀ n, n ∈ names' ↔ n ∈ names) : ending'.exit = ending.exit := by
  have htext : (∀ n ∈ names', Intake.HasText look n) ↔ ∀ n ∈ names, Intake.HasText look n :=
    forall_congr' fun n => imp_congr_left (hsame n)
  have herrors : HasErrors look e names' ↔ HasErrors look e names :=
    exists_congr fun d => and_congr_left' (hsame d.name)
  by_cases hall : ∀ n ∈ names, Intake.HasText look n
  · by_cases herr : HasErrors look e names
    · rw [ht.errors.mpr ⟨hall, herr⟩, ht'.errors.mpr ⟨htext.mpr hall, herrors.mpr herr⟩]
    · rw [ht.fine.mpr ⟨hall, herr⟩, ht'.fine.mpr ⟨htext.mpr hall, mt herrors.mp herr⟩]
  · have hall' := mt htext.mp hall
    simp only [not_forall] at hall hall'
    obtain ⟨n, hn, hno⟩ := hall
    obtain ⟨n', hn', hno'⟩ := hall'
    rw [ht.trouble.mpr ⟨n, hn, hno⟩, ht'.trouble.mpr ⟨n', hn', hno'⟩]

/-- The block of a file is the same wherever its name stands. -/
theorem Shows.eq {name : Text α} {b b' : List Text} (hb : Shows look e name b) (hb' : Shows look e name b') :
    b = b' := by
  cases hb with
  | block named holds found text =>
    cases hb' with
    | block named' holds' found' text' =>
      obtain rfl := holds.eq holds' (named.trans named'.symm)
      exact congrArg (fun t => [t]) (Alphabet.embed_injective (text.symm.trans text'))
    | nothing clean => exact absurd (clean _ named holds) found
  | nothing clean =>
    cases hb' with
    | block named' holds' found' text' => exact absurd (clean _ named' holds') found'
    | nothing clean' => rfl

/-- The blocks of files come in the order of their names. -/
theorem Tells.out_perm {names' : List (Text α)} {ending ending' : Ending}
    (ht : Tells look e names .text ending) (ht' : Tells look e names' .text ending')
    (hperm : names'.Perm names) : ending'.out.Perm ending.out := by
  obtain ⟨bs, hbs, hout⟩ := ht.blocks rfl
  obtain ⟨bs', hbs', hout'⟩ := ht'.blocks rfl
  obtain ⟨cs, hcs, hsame⟩ := List.perm_comp_forall₂ hperm hbs
  have hunique : Relator.RightUnique (Shows look e) := fun _ _ _ => Shows.eq
  obtain rfl := List.right_unique_forall₂' hunique hbs' hcs
  rw [hout, hout']
  exact hsame.flatten

/-- The command called with names that files can have. -/
theorem exists_run_eq (hs : h.Steady files) {st : σ} {e : Engine α} {names : List (Text α)}
    (hgood : ∀ n ∈ names, Intake.Accepts (h.look st) n) (format : Format) (j : Journal) :
    ∃ rs j' st', (run h e format names j).run st =
        (ending format (Intake.ofNames (h.look st) e.settings names) rs j', st') ∧
      files st' = files st ∧
      List.Forall₂ (Reported e) (Intake.documents (Intake.ofNames (h.look st) e.settings names)) rs := by
  have hrefused := (Intake.findSome?_refusal?_eq_none_iff (s := e.settings)).mpr hgood
  obtain ⟨rs, j', st', hreports, hkept, hrs⟩ := exists_reports_eq hs e
    (Intake.documents (Intake.ofNames (h.look st) e.settings names))
    (j.recordAll (Intake.calls (Intake.ofNames (h.look st) e.settings names))) st
  refine ⟨rs, j', st', ?_, hkept, hrs⟩
  rw [run_eq, (command h e format).run_of_accepted hs.toQuiet hrefused j hreports]
  rfl

/-- The command called with a name that no file can have. -/
theorem run_of_refused (hq : h.Quiet) {st : σ} {e : Engine α} {names : List (Text α)} {f : Fault}
    (hf : (Intake.ofNames (h.look st) e.settings names).findSome? (·.refusal?) = some f)
    (format : Format) (j : Journal) :
    (run h e format names j).run st =
      (Ending.refused (Intake.ofNames (h.look st) e.settings names) j f, st) := by
  rw [run_eq, (command h e format).run_of_refused hq hf]

/-- Checking changes no file. Called with names that files can have, the command ends by
the files that are no texts and by the errors in documents, and prints the blocks of the
files in their order; another order of the names gives the same number and the same
blocks in another order. As text it stops at the first block that cannot be printed. With
a name that no file can have it ends with a fault. -/
theorem run_tells (hs : h.Steady files) (st : σ) (e : Engine α) (names : List (Text α)) (j : Journal) :
    (∀ format, files ((run h e format names j).run st).2 = files st) ∧
    ((∀ n ∈ names, FileName.refusal? n = none) →
      (∀ format, (format = .text → Printable (h.look st) e names) →
        Tells (h.look st) e names format ((run h e format names j).run st).1 ∧
        ∀ names' : List (Text α), names'.Perm names →
          ((run h e format names' j).run st).1.exit = ((run h e format names j).run st).1.exit ∧
          (format = .text →
            ((run h e format names' j).run st).1.out.Perm ((run h e format names j).run st).1.out)) ∧
      ∀ before d after f, names = before ++ d.name :: after → Printable (h.look st) e before →
        Unprintable (h.look st) e d f → Stops (h.look st) e before f ((run h e .text names j).run st).1) ∧
    ((∃ n ∈ names, FileName.refusal? n ≠ none) → ∃ n ∈ names, ∃ p, FileName.refusal? n = some p ∧
      ∀ format, ((run h e format names j).run st).1.exit = .error (.ofFile p n)) := by
  have hgood_of {names : List (Text α)} (hnames : ∀ n ∈ names, FileName.refusal? n = none) :
      ∀ n ∈ names, Intake.Accepts (h.look st) n := fun n hn => hs.accepts_iff.mpr (hnames n hn)
  have htells {names : List (Text α)} (hnames : ∀ n ∈ names, FileName.refusal? n = none) {format : Format}
      (hprintable : format = .text → Printable (h.look st) e names) :
      Tells (h.look st) e names format ((run h e format names j).run st).1 := by
    obtain ⟨rs, j', st', hrun, -, hrs⟩ := exists_run_eq hs (e := e) (hgood_of hnames) format j
    rw [hrun]
    exact tells_ending (hgood_of hnames) hrs hprintable j'
  refine ⟨fun format => ?_, fun hnames => ⟨fun format hprintable => ?_, ?_⟩, fun hbad => ?_⟩
  · cases hf : (Intake.ofNames (h.look st) e.settings names).findSome? (·.refusal?) with
    | some f => rw [run_of_refused hs.toQuiet hf]
    | none =>
      obtain ⟨rs, j', st', hrun, hkept, -⟩ :=
        exists_run_eq hs (Intake.findSome?_refusal?_eq_none_iff.mp hf) format j
      rw [hrun]
      exact hkept
  · refine ⟨htells hnames hprintable, fun names' hperm => ?_⟩
    have hnames' : ∀ n ∈ names', FileName.refusal? n = none := fun n hn => hnames n (hperm.mem_iff.mp hn)
    have hprintable' : format = .text → Printable (h.look st) e names' :=
      fun hformat d f hd => hprintable hformat d f (hperm.mem_iff.mp hd)
    have htold := htells hnames hprintable
    have htold' := htells hnames' hprintable'
    refine ⟨htold.exit_eq htold' fun n => hperm.mem_iff, ?_⟩
    rintro rfl
    exact htold.out_perm htold' hperm
  · rintro before d after f rfl hprintable hd
    obtain ⟨rs, j', st', hrun, -, hrs⟩ := exists_run_eq hs (e := e) (hgood_of hnames) .text j
    rw [hrun]
    exact stops_ending hrs hprintable hd _ j'
  · obtain ⟨n, hn, hrefusal⟩ := hbad
    have hrefuses : ∃ n ∈ names, ¬ Intake.Accepts (h.look st) n := ⟨n, hn, mt hs.accepts_iff.mp hrefusal⟩
    obtain ⟨n', hn', p, hrefuses, hread, hf⟩ :=
      Intake.exists_findSome?_refusal? (s := e.settings) hrefuses
    refine ⟨n', hn', p, (hs.refused n' st hrefuses).mp hread, fun format => ?_⟩
    rw [run_of_refused hs.toQuiet hf]
    rfl

/-- A document with a mistyped tag, and a file that does not exist, in either order; and such
a document before one whose name is no text. -/
theorem run_tells_gone :
    ((run (Files.host ⟨⟨2024, 1, 1⟩, 0, 0, 0, 0, none⟩) (Engine.stock {}) .json
        [lit "gone.html", lit "a.html"] {}).run
      ⟨[([lit "a.html"], .file (Utf8.encode (lit "<im src=\"a_files/1.png\">")))], [], []⟩).1.exit = .ok 2 ∧
    ((run (Files.host ⟨⟨2024, 1, 1⟩, 0, 0, 0, 0, none⟩) (Engine.stock {}) .text
        [lit "a.html", lit "gone.html"] {}).run
      ⟨[([lit "a.html"], .file (Utf8.encode (lit "<im src=\"a_files/1.png\">")))], [], []⟩).1.out.Perm
    ((run (Files.host ⟨⟨2024, 1, 1⟩, 0, 0, 0, 0, none⟩) (Engine.stock {}) .text
        [lit "gone.html", lit "a.html"] {}).run
      ⟨[([lit "a.html"], .file (Utf8.encode (lit "<im src=\"a_files/1.png\">")))], [], []⟩).1.out ∧
    ((run (Files.host ⟨⟨2024, 1, 1⟩, 0, 0, 0, 0, none⟩) (Engine.stock {}) .text
        [Alphabet.embed (lit "a.html"), CodePoint.half 0x4ff :: Alphabet.embed (lit ".html")] {}).run
      ⟨[([Utf8.encode (lit "a.html")], .file (Utf8.encode (lit "<im src=\"a_files/1.png\">"))),
        ([0xff :: Utf8.encode (lit ".html")], .file (Utf8.encode (lit "<img src=\"1.png\">")))],
        [], []⟩).1.exit = .error (.notWritable ⟨0xDCFF, 0, 1⟩) := by
  obtain ⟨-, htells, -⟩ := run_tells (Files.steady_host ⟨⟨2024, 1, 1⟩, 0, 0, 0, 0, none⟩)
    ⟨[([lit "a.html"], .file (Utf8.encode (lit "<im src=\"a_files/1.png\">")))], [], []⟩ (Engine.stock {})
    [lit "gone.html", lit "a.html"] {}
  obtain ⟨htells, -⟩ := htells (by decide)
  have hprintable : Printable
      ((Files.host ⟨⟨2024, 1, 1⟩, 0, 0, 0, 0, none⟩).look
        ⟨[([lit "a.html"], .file (Utf8.encode (lit "<im src=\"a_files/1.png\">")))], [], []⟩)
      (Engine.stock {}) [lit "gone.html", lit "a.html"] :=
    fun d f _ h => nomatch h.error
  obtain ⟨-, hstops, -⟩ := run_tells (Files.steady_host ⟨⟨2024, 1, 1⟩, 0, 0, 0, 0, none⟩)
    ⟨[([Utf8.encode (lit "a.html")], .file (Utf8.encode (lit "<im src=\"a_files/1.png\">"))),
      ([0xff :: Utf8.encode (lit ".html")], .file (Utf8.encode (lit "<img src=\"1.png\">")))], [], []⟩
    (Engine.stock {}) [Alphabet.embed (lit "a.html"), CodePoint.half 0x4ff :: Alphabet.embed (lit ".html")] {}
  obtain ⟨-, hstops⟩ := hstops (by decide)
  refine ⟨(htells .json nofun).1.trouble.mpr ⟨lit "gone.html", List.mem_cons_self, ?_⟩,
    ((htells .text fun _ => hprintable).2 [lit "a.html", lit "gone.html"] (.swap _ _ _)).2 rfl,
    (hstops [Alphabet.embed (lit "a.html")]
      ⟨lit "<img src=\"1.png\">", CodePoint.half 0x4ff :: Alphabet.embed (lit ".html"), none⟩ [] _ rfl ?_
      ⟨⟨⟨_, rfl, by decide +kernel⟩, rfl, by decide +kernel⟩, ?_, by decide +kernel⟩).exit⟩
  · rintro ⟨bytes, text, hread, -⟩
    exact nomatch hread
  · rintro d f hd h
    obtain hname := List.mem_singleton.mp hd
    refine absurd ⟨lit "a.html", hname⟩ (exists_unprintable_stock_iff.mp ⟨f, h⟩).2.2
  · intro h
    exact absurd (congrArg List.length h) (by decide +kernel)

/-- Not for every list of names does the number tell which files are no texts. -/
theorem not_trouble_iff_of_names :
    ¬ ∀ (s : Settings) (fs : Files) (moment : Moment) (format : Format) (names : List Text) (j : Journal),
      ((run (Files.host moment) (Engine.stock s) format names j).run fs).1.exit = .ok 2 ↔
        ∃ n ∈ names, ¬ Intake.HasText fs.read n := by
  intro h
  have htrouble := (h {} {} ⟨⟨2024, 1, 1⟩, 0, 0, 0, 0, none⟩ .text [lit "a\x00b.html"] {}).mpr
    ⟨lit "a\x00b.html", List.mem_cons_self, ?_⟩
  · exact nomatch htrouble
  · rintro ⟨bytes, text, hread, -⟩
    exact nomatch hread

end Check

end Worksheet
