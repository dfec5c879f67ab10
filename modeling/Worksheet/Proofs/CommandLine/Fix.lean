import Worksheet.Proofs.CommandLine.Repair

/-!
# What the correction of files changes

Every file that has corrections and can be written gets its corrected text, and no other
file changes (`Fix.outcome_files`). All files are read before the first one is written,
and what becomes of a document depends on its name only through the last part of it
(`Fix.corrected_eq`); so it does not matter in which order files are named, and how
often.

A name may hold bytes that are no text. At a document with such a name the command stops
(`Fix.Halts`), but only when the file has been written; and what has been written is nothing
at all if the name got into the corrected text.

* `Fix.Due` tells which files have corrections;
* `Fix.Rewrites`, `Fix.Rehearses` and `Fix.Stops` tell what the command does in earnest, in
  a dry run, and when it stops.
-/

namespace Worksheet.Fix

variable {α κ : Type} [DecidableEq α] [DecidableEq κ] [Alphabet α] [Naming α κ] {fs : Files κ}

/-! ## The whole command -/

/-- How the command ends on a tree of files, and the tree after it. -/
def outcome (fs : Files κ) (moment : Moment) (e : Engine α) (dryRun : Bool) (names : List (Text α))
    (j : Journal) : Ending × Files κ :=
  (run (Files.host moment) e dryRun names j).run fs

theorem outcome_of_refused {moment : Moment} {e : Engine α} {names : List (Text α)} {f : Fault}
    (h : (Intake.ofNames fs.read e.settings names).findSome? (·.refusal?) = some f) (dryRun : Bool)
    (j : Journal) :
    outcome fs moment e dryRun names j =
      (Ending.refused (Intake.ofNames fs.read e.settings names) j f, fs) :=
  (command (Files.host moment) e dryRun).run_of_refused (Files.quiet_host moment) h j

theorem outcome_eq {moment : Moment} {e : Engine α} {names : List (Text α)}
    (h : (Intake.ofNames fs.read e.settings names).findSome? (·.refusal?) = none) {dryRun : Bool}
    {j j' : Journal} {rs : List (Repair α)} {fs₂ : Files κ}
    (hall : (applyAll (Files.host moment) e dryRun
      (Intake.documents (Intake.ofNames fs.read e.settings names))
      (j.recordAll (Intake.calls (Intake.ofNames fs.read e.settings names)))).run fs = ((rs, j'), fs₂)) :
    outcome fs moment e dryRun names j =
      (ending (Intake.ofNames fs.read e.settings names) rs j', fs₂) :=
  (command (Files.host moment) e dryRun).run_of_accepted (Files.quiet_host moment) h j hall

/-! ## Names of one file -/

/-- What the stock rules find depends on the name of a document only through the folder
of its images. -/
theorem corrected_eq_of_folder {s : Settings} {t : Text} {n₁ n₂ : Text α} {l : Option Text}
    (h : Image.folderFor n₁ s.images.folderSuffix = Image.folderFor n₂ s.images.folderSuffix) :
    corrected (Engine.stock s) ⟨t, n₁, l⟩ = corrected (Engine.stock s) ⟨t, n₂, l⟩ := by
  have hrun : ∀ r ∈ (Engine.stockRules : List (Rule α)),
      (r.run ⟨t, n₁, l⟩ s).result = (r.run ⟨t, n₂, l⟩ s).result := by
    intro r hr
    rcases List.mem_pair.mp hr with rfl | rfl
    · rfl
    · simp only [Images.rule, Images.findings, h]
  have hfound : Engine.found ⟨t, n₁, l⟩ ((Engine.stock s).outcomes ⟨t, n₁, l⟩) =
      Engine.found ⟨t, n₂, l⟩ ((Engine.stock s).outcomes ⟨t, n₂, l⟩) := by
    rw [Engine.found_outcomes, Engine.found_outcomes]
    refine List.flatMap_congr fun r hr => ?_
    have hsettings : (Engine.stock s : Engine α).settings = s := rfl
    rw [hsettings, Engine.returned, Engine.returned, hrun r hr]
    rfl
  rw [corrected, corrected, hfound]

/-- The folder that belongs to a file is given by the last part of its place, if the file is
called by names that are texts. -/
theorem folderFor_eq (hfs : fs.IsTree) {n₁ n₂ : Text α} (h₁ : ∃ p, FileName.normal p = n₁)
    (h₂ : ∃ p, FileName.normal p = n₂) (ht₁ : n₁.IsText) (ht₂ : n₂.IsText) {place : List κ}
    {bytes : List UInt8} (hn₁ : fs.resolve n₁ = .ok place) (hn₂ : fs.resolve n₂ = .ok place)
    (hfile : fs.entryAt place = some (.file bytes)) (suffix : Text) :
    Image.folderFor n₁ suffix = Image.folderFor n₂ suffix := by
  obtain ⟨p₁, rfl⟩ := h₁
  obtain ⟨p₂, rfl⟩ := h₂
  obtain ⟨t₁, ht₁⟩ := ht₁
  obtain ⟨t₂, ht₂⟩ := ht₂
  obtain ⟨hparts₁, hlast₁⟩ := hfs.getLast?_place hn₁ hfile
  obtain ⟨hparts₂, hlast₂⟩ := hfs.getLast?_place hn₂ hfile
  rw [FileName.parts_normal] at hparts₁ hparts₂
  -- The last parts have the same bytes, which two texts have only if they are the same.
  have hbytes := Naming.key_eq_iff.mp (Option.some.inj (hlast₁.symm.trans hlast₂))
  rw [ht₁, ht₂, FileName.last_embed, FileName.last_embed, Alphabet.bytes_embed,
    Alphabet.bytes_embed] at hbytes
  have hlast : FileName.last p₁ = FileName.last p₂ := by
    rw [← FileName.last_normal p₁, ← FileName.last_normal p₂, ht₁, ht₂, FileName.last_embed,
      FileName.last_embed, Utf8.encode_injective hbytes]
  have hseparator : ((FileName.slash : α) == Alphabet.ofChar '\\' || (FileName.slash : α) == FileName.slash) =
      true := by simp
  rw [Image.folderFor, Image.folderFor, FileName.afterLast_normal hseparator hparts₁,
    FileName.afterLast_normal hseparator hparts₂, hlast]

/-- What becomes of a file does not depend on the name by which it is called, if this is a
text. -/
theorem corrected_eq (hfs : fs.IsTree) {s : Settings} {d₁ d₂ : Document α}
    (hd₁ : Intake.Holds fs.read s d₁) (hd₂ : Intake.Holds fs.read s d₂)
    (hn₁ : ∃ p, FileName.normal p = d₁.name) (hn₂ : ∃ p, FileName.normal p = d₂.name)
    (ht₁ : d₁.name.IsText) (ht₂ : d₂.name.IsText) {place : List κ}
    (h₁ : fs.resolve d₁.name = .ok place) (h₂ : fs.resolve d₂.name = .ok place) :
    corrected (Engine.stock s) d₁ = corrected (Engine.stock s) d₂ := by
  obtain ⟨bytes₁, hread₁, hdecode₁⟩ := hd₁.read
  obtain ⟨bytes₂, hread₂, hdecode₂⟩ := hd₂.read
  obtain ⟨place₁, hplace₁, hfile₁⟩ := Files.read_eq_ok_iff.mp hread₁
  obtain ⟨place₂, hplace₂, hfile₂⟩ := Files.read_eq_ok_iff.mp hread₂
  obtain rfl := Except.ok.inj (h₁.symm.trans hplace₁)
  obtain rfl := Except.ok.inj (h₂.symm.trans hplace₂)
  obtain rfl : bytes₁ = bytes₂ := by
    rw [hfile₁] at hfile₂
    exact FileEntry.file.inj (Option.some.inj hfile₂)
  have hfolder := folderFor_eq hfs hn₁ hn₂ ht₁ ht₂ h₁ h₂ hfile₁ s.images.folderSuffix
  have htext := Except.ok.inj (hdecode₁.symm.trans hdecode₂)
  have hlanguage := hd₁.language.trans hd₂.language.symm
  obtain ⟨t₁, n₁, l₁⟩ := d₁
  obtain ⟨t₂, n₂, l₂⟩ := d₂
  obtain rfl : t₁ = t₂ := htext
  obtain rfl : l₁ = l₂ := hlanguage
  exact corrected_eq_of_folder hfolder

/-! ## What changes -/

/-- A file that is named has corrections. -/
structure Due (fs : Files κ) (e : Engine α) (names : List (Text α)) (d : Document α) (place : List κ) :
    Prop where
  named : d.name ∈ names
  document : Intake.Holds fs.read e.settings d
  resolve : fs.resolve d.name = .ok place
  applied : (corrected e d).2 ≠ 0

/-- All files that have corrections can be written. -/
def Writable (fs : Files κ) (e : Engine α) (names : List (Text α)) : Prop :=
  ∀ d place, Due fs e names d place → place ∉ fs.readOnly

/-- The command stops at a document: its name is no text, and if it has corrections, its file
can be opened to be written. -/
structure Halts (fs : Files κ) (e : Engine α) (d : Document α) : Prop where
  document : Intake.Holds fs.read e.settings d
  name : ¬ d.name.IsText
  writable : (corrected e d).2 ≠ 0 → ∀ place, fs.resolve d.name = .ok place → place ∉ fs.readOnly

/-- What the command does to files if it does not stop before its end. -/
structure Rewrites (fs : Files κ) (e : Engine α) (names : List (Text α)) (earnest : Ending × Files κ) :
    Prop where
  /-- A file that has corrections and can be written holds its corrected text. -/
  written : ∀ d place, Due fs e names d place → place ∉ fs.readOnly →
    ∃ t, (corrected e d).1 = Alphabet.embed t ∧ earnest.2.entryAt place = some (.file (Utf8.encode t))
  /-- Everything else stays as it is. -/
  kept : ∀ place, (∀ d, Due fs e names d place → place ∈ fs.readOnly) →
    earnest.2.entryAt place = fs.entryAt place
  /-- The command ends well if all files can be read, and all that have corrections can be
  written. -/
  fine : earnest.1.exit = .ok 0 ↔ (∀ n ∈ names, Intake.HasText fs.read n) ∧ Writable fs e names
  /-- There is no other ending than this one. -/
  trouble : earnest.1.exit = .ok 2 ↔ ¬ ((∀ n ∈ names, Intake.HasText fs.read n) ∧ Writable fs e names)

/-- A dry run, beside the run in earnest. -/
structure Rehearses (fs : Files κ) (e : Engine α) (names : List (Text α)) (earnest dry : Ending × Files κ) :
    Prop where
  /-- It changes nothing. -/
  unchanged : dry.2 = fs
  /-- It tells the same about the same documents. -/
  told : Writable fs e names → ∃ rs : List (Text × Nat),
    earnest.1.out = rs.map (fun r => line false r.1 r.2) ∧ dry.1.out = rs.map (fun r => line true r.1 r.2)
  /-- It ends well if all files can be read. -/
  fine : (∀ d, d.name ∈ names → Intake.Holds fs.read e.settings d → d.name.IsText) →
    (dry.1.exit = .ok 0 ↔ ∀ n ∈ names, Intake.HasText fs.read n)
  /-- There is no other ending than this one. -/
  trouble : (∀ d, d.name ∈ names → Intake.Holds fs.read e.settings d → d.name.IsText) →
    (dry.1.exit = .ok 2 ↔ ¬ ∀ n ∈ names, Intake.HasText fs.read n)

/-- What the command does if it stops at a document, beside what it does when it is called
with the names before. -/
structure Stops (fs : Files κ) (e : Engine α) (d : Document α) (earnest prior : Ending × Files κ) :
    Prop where
  exit : ∃ f, earnest.1.exit = .error (.notWritable f)
  out : earnest.1.out = prior.1.out
  /-- The file of the document has been written, or emptied if its corrected text is no
  text. -/
  written : ∀ place, Writes fs e d place →
    earnest.2.entryAt place = some (.file (contents (corrected e d).1))
  /-- No file changes after the others. -/
  kept : ∀ place, ¬ Writes fs e d place → earnest.2.entryAt place = prior.2.entryAt place

theorem Writes.due {e : Engine α} {names : List (Text α)} {d : Document α} {place : List κ}
    (h : Writes fs e d place) (hd : d ∈ Intake.documents (Intake.ofNames fs.read e.settings names)) :
    Due fs e names d place :=
  have ⟨hnamed, hdocument⟩ := Intake.mem_documents.mp hd
  ⟨hnamed, hdocument, h.resolve, h.applied⟩

theorem Due.writes {e : Engine α} {names : List (Text α)} {d : Document α} {place : List κ}
    (h : Due fs e names d place) (hwritable : place ∉ fs.readOnly) :
    d ∈ Intake.documents (Intake.ofNames fs.read e.settings names) ∧ Writes fs e d place :=
  ⟨Intake.mem_documents.mpr ⟨h.named, h.document⟩, h.resolve, h.applied, hwritable⟩

/-- A document stands in a file. -/
theorem exists_file_of_holds {s : Settings} {d : Document α} (h : Intake.Holds fs.read s d) :
    ∃ place bytes, fs.resolve d.name = .ok place ∧ fs.entryAt place = some (.file bytes) := by
  obtain ⟨bytes, hread, -⟩ := h.read
  obtain ⟨place, hplace, hfile⟩ := Files.read_eq_ok_iff.mp hread
  exact ⟨place, bytes, hplace, hfile⟩

theorem exists_file_of_mem_documents {s : Settings} {names : List (Text α)} :
    ∀ d ∈ Intake.documents (Intake.ofNames fs.read s names), ∃ place bytes,
      fs.resolve d.name = .ok place ∧ fs.entryAt place = some (.file bytes) :=
  fun _ hd => exists_file_of_holds (Intake.mem_documents.mp hd).2

/-- A document is held if and only if it has corrections and its file is read-only. -/
theorem exists_isHeld_iff {e : Engine α} {names : List (Text α)} :
    (∃ d ∈ Intake.documents (Intake.ofNames fs.read e.settings names), isHeld fs e false d = true) ↔
      ¬ Writable fs e names := by
  simp only [Writable, not_forall, not_not]
  constructor
  · rintro ⟨d, hd, hheld⟩
    obtain ⟨place, -, hplace, -⟩ := exists_file_of_mem_documents d hd
    obtain ⟨happlied, hreadOnly⟩ := (isHeld_iff hplace).mp hheld
    obtain ⟨hnamed, hdocument⟩ := Intake.mem_documents.mp hd
    exact ⟨d, place, ⟨hnamed, hdocument, hplace, happlied⟩, hreadOnly⟩
  · rintro ⟨d, place, hdue, hreadOnly⟩
    exact ⟨d, Intake.mem_documents.mpr ⟨hdue.named, hdue.document⟩,
      (isHeld_iff hdue.resolve).mpr ⟨hdue.applied, hreadOnly⟩⟩

theorem Writable.isHeld {e : Engine α} {names : List (Text α)} (h : Writable fs e names) :
    ∀ d ∈ Intake.documents (Intake.ofNames fs.read e.settings names), isHeld fs e false d = false :=
  fun d hd => Bool.eq_false_iff.mpr fun hheld => exists_isHeld_iff.mp ⟨d, hd, hheld⟩ h

theorem Halts.isHeld {e : Engine α} {d : Document α} (h : Halts fs e d) : isHeld fs e false d = false := by
  refine Bool.eq_false_iff.mpr fun hheld => ?_
  obtain ⟨place, -, hplace, -⟩ := exists_file_of_holds h.document
  obtain ⟨happlied, hreadOnly⟩ := (isHeld_iff hplace).mp hheld
  exact h.writable happlied place hplace hreadOnly

/-- The command goes on after every document at which it does not halt. -/
theorem stop?_repairOf {s : Settings} {names : List (Text α)}
    (hhalts : ∀ d, d.name ∈ names → ¬ Halts fs (Engine.stock s) d) :
    ∀ d ∈ Intake.documents (Intake.ofNames fs.read s names),
      (repairOf fs (Engine.stock s) false d).stop? = none := by
  intro d hd
  obtain ⟨hnamed, hdocument⟩ := Intake.mem_documents.mp hd
  cases hheld : isHeld fs (Engine.stock s) false d with
  | true =>
    rw [repairOf, if_pos hheld]
    rfl
  | false =>
    have htext : d.name.IsText := by
      by_contra hname
      refine hhalts d hnamed ⟨hdocument, hname, fun happlied place hplace hreadOnly => ?_⟩
      exact absurd ((isHeld_iff hplace).mpr ⟨happlied, hreadOnly⟩) (Bool.eq_false_iff.mp hheld)
    obtain ⟨d₀, rfl, -⟩ := exists_embed_eq htext
    rw [repairOf_embed hheld]
    rfl

/-- A document that is written, and at which the command does not stop, has a text as its
name. -/
theorem Writes.isText {e : Engine α} {d : Document α} {place : List κ} (h : Writes fs e d place)
    (hdocument : Intake.Holds fs.read e.settings d) (hhalts : ¬ Halts fs e d) : d.name.IsText := by
  by_contra hname
  refine hhalts ⟨hdocument, hname, fun _ place' hplace' => ?_⟩
  obtain rfl := Except.ok.inj (h.resolve.symm.trans hplace')
  exact h.writable

/-- The command as a whole, when it is called with names that files can have and does not
stop. -/
theorem rewrites_outcome (s : Settings) (hfs : fs.IsTree) (moment : Moment) {names : List (Text α)}
    (hnames : ∀ n ∈ names, ∃ p, FileName.normal p = n) (hgood : ∀ n ∈ names, Intake.Accepts fs.read n)
    (hhalts : ∀ d, d.name ∈ names → ¬ Halts fs (Engine.stock s) d) (j : Journal) :
    Rewrites fs (Engine.stock s) names (outcome fs moment (Engine.stock s) false names j) := by
  have hrefused := (Intake.findSome?_refusal?_eq_none_iff (s := s)).mpr hgood
  have hdone := stop?_repairOf hhalts
  obtain ⟨j₁, fs₂, hrun, -, hentry⟩ := exists_applyAll_eq (Files.Alike.refl fs) moment (Engine.stock s)
    (Intake.documents (Intake.ofNames fs.read s names)) exists_file_of_mem_documents
    (j.recordAll (Intake.calls (Intake.ofNames fs.read s names)))
  rw [reached_eq_self hdone] at hrun hentry
  have htrouble : (¬ ((∀ n ∈ names, Intake.HasText fs.read n) ∧ Writable fs (Engine.stock s) names)) ↔
      ((Intake.ofNames fs.read s names).any (·.isUnread) ||
        ((Intake.documents (Intake.ofNames fs.read s names)).map (repairOf fs (Engine.stock s) false)).any
          (·.isUnwritten)) = true := by
    rw [Bool.or_eq_true, Intake.any_isUnread_iff hgood, List.any_map, List.any_eq_true, not_and_or,
      ← exists_isHeld_iff]
    simp only [Function.comp_apply, isUnwritten_repairOf]
    rfl
  rw [outcome_eq hrefused hrun]
  refine ⟨fun d place hdue hwritable => ?_, fun place hkept => ?_, ?_, ?_⟩
  · obtain ⟨hd, hwrites⟩ := hdue.writes hwritable
    have htext := hwrites.isText hdue.document (hhalts d hdue.named)
    rcases hentry place with ⟨d', hd', hwrites', he⟩ | ⟨hno, -⟩
    · obtain ⟨hnamed', hdocument'⟩ := Intake.mem_documents.mp hd'
      have hcorrected : corrected (Engine.stock s) d = corrected (Engine.stock s) d' :=
        corrected_eq hfs hdue.document hdocument' (hnames _ hdue.named) (hnames _ hnamed') htext
          (hwrites'.isText hdocument' (hhalts d' hnamed')) hdue.resolve hwrites'.resolve
      obtain ⟨d₀, rfl, -⟩ := exists_embed_eq htext
      rw [← hcorrected, corrected_embed, contents, Alphabet.narrow_embed] at he
      exact ⟨(corrected (Engine.stock s) d₀).1, by rw [corrected_embed], he⟩
    · exact absurd hwrites (hno d hd)
  · rcases hentry place with ⟨d, hd, hwrites, -⟩ | ⟨-, he⟩
    · exact absurd (hkept d (hwrites.due hd)) hwrites.writable
    · exact he
  · rw [← not_not (a := _ ∧ _), htrouble]
    exact (exit_ending_iff _ (List.forall_mem_map.mpr hdone) j₁).1
  · rw [htrouble]
    exact (exit_ending_iff _ (List.forall_mem_map.mpr hdone) j₁).2

/-- The dry run, when the command is called with names that files can have. -/
theorem rehearses_outcome (s : Settings) (moment : Moment) {names : List (Text α)}
    (hgood : ∀ n ∈ names, Intake.Accepts fs.read n) (j : Journal) :
    Rehearses fs (Engine.stock s) names (outcome fs moment (Engine.stock s) false names j)
      (outcome fs moment (Engine.stock s) true names j) := by
  have hrefused := (Intake.findSome?_refusal?_eq_none_iff (s := s)).mpr hgood
  obtain ⟨j₁, fs₂, hearnest, -⟩ := exists_applyAll_eq (Files.Alike.refl fs) moment (Engine.stock s)
    (Intake.documents (Intake.ofNames fs.read s names)) exists_file_of_mem_documents
    (j.recordAll (Intake.calls (Intake.ofNames fs.read s names)))
  obtain ⟨j₂, hdry⟩ := exists_applyAll_dryRun_eq fs fs moment (Engine.stock s)
    (Intake.documents (Intake.ofNames fs.read s names))
    (j.recordAll (Intake.calls (Intake.ofNames fs.read s names)))
  rw [outcome_eq hrefused hearnest, outcome_eq hrefused hdry]
  have hdocuments (htext : ∀ d, d.name ∈ names → Intake.Holds fs.read s d → d.name.IsText) :
      ∀ d ∈ Intake.documents (Intake.ofNames fs.read s names), d.name.IsText :=
    fun d hd => have ⟨hnamed, hdocument⟩ := Intake.mem_documents.mp hd; htext d hnamed hdocument
  refine ⟨rfl, fun hwritable => ?_, fun htext => ?_, fun htext => ?_⟩
  · have hheld := hwritable.isHeld
    -- Both runs come to the same documents.
    have hreached : reached fs (Engine.stock s) true (Intake.documents (Intake.ofNames fs.read s names)) =
        reached fs (Engine.stock s) false (Intake.documents (Intake.ofNames fs.read s names)) := by
      refine reached_congr fun d hd => ?_
      rw [(repairOf_of_not_isHeld (isHeld_dryRun fs _ d)).2, (repairOf_of_not_isHeld (hheld d hd)).2]
    refine ⟨_, filterMap_line?_repairOf fun d hd => hheld d (mem_of_mem_reached hd), ?_⟩
    rw [← hreached]
    exact filterMap_line?_repairOf fun d _ => isHeld_dryRun fs _ d
  · rw [← not_not (a := ∀ n ∈ names, Intake.HasText fs.read n), ← Intake.any_isUnread_iff hgood]
    exact (exit_dryRun_iff _ (hdocuments htext) j₂).1
  · rw [← Intake.any_isUnread_iff hgood]
    exact (exit_dryRun_iff _ (hdocuments htext) j₂).2

/-- The command as a whole, when it is called with names that files can have and stops at a
document. -/
theorem stops_outcome (s : Settings) (moment : Moment) {before after : List (Text α)} {d : Document α}
    (hgood : ∀ n ∈ before ++ d.name :: after, Intake.Accepts fs.read n)
    (hhalts : ∀ d', d'.name ∈ before → ¬ Halts fs (Engine.stock s) d')
    (hd : Halts fs (Engine.stock s) d) (j : Journal) :
    Stops fs (Engine.stock s) d (outcome fs moment (Engine.stock s) false (before ++ d.name :: after) j)
      (outcome fs moment (Engine.stock s) false before j) := by
  have hrefused := (Intake.findSome?_refusal?_eq_none_iff (s := s)).mpr hgood
  have hrefused' := (Intake.findSome?_refusal?_eq_none_iff (s := s)).mpr
    fun n hn => hgood n (List.mem_append_left _ hn)
  have hdone := stop?_repairOf hhalts
  -- The names before are worked on alike, whatever comes behind them.
  obtain ⟨j₁, fs₁, hfront, halike, -⟩ := exists_applyAll_eq (Files.Alike.refl fs) moment (Engine.stock s)
    (Intake.documents (Intake.ofNames fs.read s before)) exists_file_of_mem_documents
    (j.recordAll (Intake.calls (Intake.ofNames fs.read s (before ++ d.name :: after))))
  obtain ⟨j₁', fs₁', hprior, -, -⟩ := exists_applyAll_eq (Files.Alike.refl fs) moment (Engine.stock s)
    (Intake.documents (Intake.ofNames fs.read s before)) exists_file_of_mem_documents
    (j.recordAll (Intake.calls (Intake.ofNames fs.read s before)))
  rw [reached_eq_self hdone] at hfront hprior
  have hstate := (applyAll_journal (Files.host moment) (Engine.stock s) false
    (Intake.documents (Intake.ofNames fs.read s before))
    (j.recordAll (Intake.calls (Intake.ofNames fs.read s (before ++ d.name :: after))))
    (j.recordAll (Intake.calls (Intake.ofNames fs.read s before))) fs).2
  rw [hfront, hprior] at hstate
  obtain rfl : fs₁ = fs₁' := hstate
  obtain ⟨f, hf⟩ := exists_repairOf_eq_stopped hd.isHeld hd.name
  obtain ⟨place, bytes, hplace, hfile⟩ := exists_file_of_holds hd.document
  obtain ⟨j₂, fs₂, hlast, -, hentry⟩ := exists_apply_eq halike moment (Engine.stock s) hplace hfile j₁
  rw [hf] at hlast
  have hall := run_applyAll_append hfront (List.forall_mem_map.mpr hdone)
    (run_applyAll_of_stopped hlast rfl (Intake.documents (Intake.ofNames fs.read s after)))
  rw [← Intake.documents_append_cons (s := s) hd.document] at hall
  rw [outcome_eq hrefused hall, outcome_eq hrefused' hprior]
  refine ⟨⟨f, ?_⟩, ?_, fun place hwrites => (hentry place).1 hwrites,
    fun place hkept => (hentry place).2 hkept⟩
  · have hstop : ((Intake.documents (Intake.ofNames fs.read s before)).map
        (repairOf fs (Engine.stock s) false) ++ [(.stopped f : Repair α)]).findSome? (·.stop?) = some f := by
      rw [List.findSome?_append, List.findSome?_eq_none_iff.mpr (List.forall_mem_map.mpr hdone)]
      rfl
    rw [ending]
    simp only [hstop]
  · show List.filterMap _ _ = List.filterMap _ _
    rw [List.filterMap_append]
    exact List.append_nil _

/-- A dry run changes nothing. Called with names that files can have, the command rewrites
them as it should, and neither the order of the names matters nor how often one occurs,
unless it comes to a document with a name that is no text: there it stops, when what is
to be written to this file has been written. With a name that no file can have it ends
with a fault and changes nothing. -/
theorem outcome_files (s : Settings) (hfs : fs.IsTree) (moment : Moment) (names : List (Text α))
    (hnames : ∀ n ∈ names, ∃ p, FileName.normal p = n) (j : Journal) :
    ((∀ n ∈ names, FileName.refusal? n = none) →
      Rehearses fs (Engine.stock s) names (outcome fs moment (Engine.stock s) false names j)
        (outcome fs moment (Engine.stock s) true names j) ∧
      ((∀ d, d.name ∈ names → ¬ Halts fs (Engine.stock s) d) →
        Rewrites fs (Engine.stock s) names (outcome fs moment (Engine.stock s) false names j) ∧
        ∀ names' : List (Text α), (∀ n, n ∈ names' ↔ n ∈ names) → ∀ place,
          (outcome fs moment (Engine.stock s) false names' j).2.entryAt place =
            (outcome fs moment (Engine.stock s) false names j).2.entryAt place) ∧
      ∀ before d after, names = before ++ d.name :: after →
        (∀ d', d'.name ∈ before → ¬ Halts fs (Engine.stock s) d') → Halts fs (Engine.stock s) d →
        Stops fs (Engine.stock s) d (outcome fs moment (Engine.stock s) false names j)
          (outcome fs moment (Engine.stock s) false before j)) ∧
    ((∃ n ∈ names, FileName.refusal? n ≠ none) → ∃ n ∈ names, ∃ p, FileName.refusal? n = some p ∧
      ∀ dryRun, (outcome fs moment (Engine.stock s) dryRun names j).1.exit = .error (.ofFile p n) ∧
        (outcome fs moment (Engine.stock s) dryRun names j).2 = fs) := by
  have haccepts {n : Text α} : Intake.Accepts fs.read n ↔ FileName.refusal? n = none :=
    (Files.quiet_host moment).accepts_iff
  refine ⟨fun hgood => ⟨?_, fun hhalts => ⟨?_, fun names' hsame place => ?_⟩, ?_⟩, fun hbad => ?_⟩
  · exact rehearses_outcome s moment (fun n hn => haccepts.mpr (hgood n hn)) j
  · exact rewrites_outcome s hfs moment hnames (fun n hn => haccepts.mpr (hgood n hn)) hhalts j
  · have hrewrites := rewrites_outcome s hfs moment hnames (fun n hn => haccepts.mpr (hgood n hn)) hhalts j
    have hnames' : ∀ n ∈ names', ∃ p, FileName.normal p = n := fun n hn => hnames n ((hsame n).mp hn)
    have hrewrites' := rewrites_outcome s hfs moment hnames'
      (fun n hn => haccepts.mpr (hgood n ((hsame n).mp hn))) (fun d hd => hhalts d ((hsame _).mp hd)) j
    have hdue (d : Document α) (place : List κ) : Due fs (Engine.stock s) names' d place ↔
        Due fs (Engine.stock s) names d place :=
      ⟨fun h => ⟨(hsame _).mp h.named, h.document, h.resolve, h.applied⟩,
        fun h => ⟨(hsame _).mpr h.named, h.document, h.resolve, h.applied⟩⟩
    by_cases h : ∃ d, Due fs (Engine.stock s) names d place ∧ place ∉ fs.readOnly
    · obtain ⟨d, hd, hwritable⟩ := h
      obtain ⟨t, ht, he⟩ := hrewrites.written d place hd hwritable
      obtain ⟨t', ht', he'⟩ := hrewrites'.written d place ((hdue d place).mpr hd) hwritable
      rw [he, he', Alphabet.embed_injective (ht.symm.trans ht')]
    · have hkept : ∀ d, Due fs (Engine.stock s) names d place → place ∈ fs.readOnly := fun d hd =>
        not_not.mp fun hwritable => h ⟨d, hd, hwritable⟩
      rw [hrewrites.kept place hkept, hrewrites'.kept place fun d hd => hkept d ((hdue d place).mp hd)]
  · rintro before d after rfl hhalts hd
    exact stops_outcome s moment (fun n hn => haccepts.mpr (hgood n hn)) hhalts hd j
  · obtain ⟨n, hn, hrefusal⟩ := hbad
    have hrefuses : ∃ n ∈ names, ¬ Intake.Accepts fs.read n := ⟨n, hn, mt haccepts.mp hrefusal⟩
    obtain ⟨n', hn', p, hrefuses, hread, hrefused⟩ :=
      Intake.exists_findSome?_refusal? (s := s) hrefuses
    refine ⟨n', hn', p, (fs.read_eq_error_iff hrefuses).mp hread, fun dryRun => ?_⟩
    rw [outcome_of_refused hrefused]
    exact ⟨rfl, rfl⟩

/-- A file that is named twice, and one whose name is no text and belongs into the corrected
text, which is lost. -/
theorem outcome_files_twice :
    (outcome ⟨[([lit "w", lit "a.html"],
        .file (Utf8.encode (lit "<p align=\"right\"><b>(Total for question = 2 mark)</b></p>\r\n")))],
        [lit "w"], []⟩ ⟨⟨2024, 1, 1⟩, 0, 0, 0, 0, none⟩ (Engine.stock {}) false
        [lit "a.html", lit "../w/a.html"] {}).2.entryAt [lit "w", lit "a.html"] =
      some (.file (Utf8.encode
        (lit "<p align=\"right\"><b>(Total for question = 2 marks)</b></p>\r\n"))) ∧
    (outcome ⟨[([0xff :: Utf8.encode (lit ".html")], .file (Utf8.encode (lit "<img src=\"1.png\">")))], [], []⟩
        ⟨⟨2024, 1, 1⟩, 0, 0, 0, 0, none⟩ (Engine.stock {}) false
        [CodePoint.half 0x4ff :: Alphabet.embed (lit ".html")] {}).2.entryAt
        [0xff :: Utf8.encode (lit ".html")] =
      some (.file []) := by
  have htree : Files.IsTree ⟨[([lit "w", lit "a.html"],
      .file (Utf8.encode (lit "<p align=\"right\"><b>(Total for question = 2 mark)</b></p>\r\n")))],
      [lit "w"], []⟩ := by
    refine ⟨fun h e he _ => ?_, nofun, nofun⟩
    obtain rfl := List.mem_singleton.mp he
    exact (List.mem_singleton.mp (Files.mem_places_of_entryAt h)).symm
  have hrewrites := (((outcome_files {} htree ⟨⟨2024, 1, 1⟩, 0, 0, 0, 0, none⟩
    [lit "a.html", lit "../w/a.html"] (List.forall_mem_cons.mpr ⟨⟨lit "a.html", by decide⟩,
      List.forall_mem_singleton.mpr ⟨lit "../w/a.html", by decide⟩⟩) {}).1 (by decide)).2.1
    fun d _ h => h.name (Alphabet.isText_char d.name)).1
  have hcorrected : corrected (Engine.stock {})
      ⟨lit "<p align=\"right\"><b>(Total for question = 2 mark)</b></p>\r\n", lit "a.html", none⟩ =
      (lit "<p align=\"right\"><b>(Total for question = 2 marks)</b></p>\r\n", 1) := by
    decide +kernel
  obtain ⟨t, ht, hwritten⟩ := hrewrites.written
    ⟨lit "<p align=\"right\"><b>(Total for question = 2 mark)</b></p>\r\n", lit "a.html", none⟩
    [lit "w", lit "a.html"] ⟨List.mem_cons_self, ⟨⟨_, rfl, by decide +kernel⟩, rfl, by decide +kernel⟩,
      by decide +kernel, by rw [hcorrected]; decide⟩ List.not_mem_nil
  rw [hcorrected] at ht
  have htree' : Files.IsTree ⟨[([0xff :: Utf8.encode (lit ".html")],
      .file (Utf8.encode (lit "<img src=\"1.png\">")))], [], []⟩ := by
    refine ⟨fun h e he _ => ?_, nofun, nofun⟩
    obtain rfl := List.mem_singleton.mp he
    exact (List.mem_singleton.mp (Files.mem_places_of_entryAt h)).symm
  have hstops := ((outcome_files {} htree' ⟨⟨2024, 1, 1⟩, 0, 0, 0, 0, none⟩
    [CodePoint.half 0x4ff :: Alphabet.embed (lit ".html")]
    (List.forall_mem_singleton.mpr ⟨CodePoint.half 0x4ff :: Alphabet.embed (lit ".html"), by decide⟩)
    {}).1 (by decide)).2.2 []
    ⟨lit "<img src=\"1.png\">", CodePoint.half 0x4ff :: Alphabet.embed (lit ".html"), none⟩ [] rfl nofun
    ⟨⟨⟨_, rfl, by decide +kernel⟩, rfl, by decide +kernel⟩, ?_, fun _ _ _ => List.not_mem_nil⟩
  · refine ⟨hwritten.trans (congrArg (fun t => some (FileEntry.file (Utf8.encode t))) ht.symm), ?_⟩
    rw [hstops.written [0xff :: Utf8.encode (lit ".html")]
      ⟨by decide +kernel, by decide +kernel, List.not_mem_nil⟩]
    decide +kernel
  · rintro ⟨t, ht⟩
    cases t <;> exact nomatch ht

/-- Not every list of names makes the command end with a number. -/
theorem not_exit_of_names :
    ¬ ∀ (s : Settings) (fs : Files), fs.IsTree → ∀ (moment : Moment) (names : List Text),
      (∀ n ∈ names, ∃ p, FileName.normal p = n) → ∀ j : Journal,
      (outcome fs moment (Engine.stock s) false names j).1.exit = .ok 0 ∨
        (outcome fs moment (Engine.stock s) false names j).1.exit = .ok 2 := by
  intro h
  have hempty : ({} : Files).IsTree := ⟨nofun, nofun, nofun⟩
  rcases h {} {} hempty ⟨⟨2024, 1, 1⟩, 0, 0, 0, 0, none⟩ [lit "a\x00b.html"]
    (List.forall_mem_singleton.mpr ⟨lit "a\x00b.html", by decide⟩) {} with h | h
  · exact nomatch h
  · exact nomatch h

end Worksheet.Fix
