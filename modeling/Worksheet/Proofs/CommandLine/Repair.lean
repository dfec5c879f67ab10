import Worksheet.Proofs.CommandLine.Command
import Worksheet.Proofs.Engine.Embedding

/-!
# Documents that are corrected

What the command that corrects documents does with them, one after the other. A document is
corrected and written if it has corrections and its file can be written
(`Fix.exists_apply_eq`), and a document with a name that is no text makes the command stop,
as the line about it cannot be printed (`Fix.exists_repairOf_eq_stopped`).

* `Fix.corrected` is a document with its corrections, and `Fix.repairOf` what comes of it;
* `Fix.reached` are the documents that the command comes to, and `Fix.exists_applyAll_eq`
  tells what the files hold after them.
-/

namespace Worksheet.Fix

variable {α κ : Type} [DecidableEq α] [DecidableEq κ] [Alphabet α] [Naming α κ]

/-! ## One document -/

section

omit [DecidableEq α]

/-- A document with its corrections, and their number. -/
def corrected (e : Engine α) (d : Document α) : Text α × Nat :=
  Correction.applyAll (Alphabet.embed d.text) (Engine.found d (e.outcomes d))

/-- The corrections are those of the findings of a check. -/
theorem corrected_eq_applyAll (e : Engine α) (d : Document α) (moment : Moment) (duration : Binary64)
    (j : Journal) :
    corrected e d =
      Correction.applyAll (Alphabet.embed d.text) (e.validate d moment duration j).1.diagnostics := rfl

theorem line_embed (dryRun : Bool) (name : Text) (applied : Nat) :
    line dryRun (Alphabet.embed name : Text α) applied = Alphabet.embed (line dryRun name applied) :=
  (Alphabet.embed_append name _).symm

/-- The line about a document can be printed if its name can. -/
theorem tell_embed (dryRun : Bool) (name : Text) (applied : Nat) :
    tell dryRun (Alphabet.embed name : Text α) applied = .told (line dryRun name applied) := by
  rw [tell, line_embed, Alphabet.narrow_embed]

theorem exists_tell_eq_stopped (dryRun : Bool) {name : Text α} (h : ¬ name.IsText) (applied : Nat) :
    ∃ f, tell dryRun name applied = .stopped f := by
  obtain ⟨f, hf⟩ := Alphabet.exists_of_not_isText
    (t := line dryRun name applied) (mt Alphabet.isText_of_append h)
  exact ⟨f, by rw [tell, hf]⟩

theorem isUnwritten_tell (dryRun : Bool) (name : Text α) (applied : Nat) :
    (tell dryRun name applied).isUnwritten = false := by
  rw [tell]
  split <;> rfl

/-- What comes of a document when its file has been written: the command goes on if the text
and the line about it are made of characters. -/
def afterWriting (name t : Text α) (applied : Nat) : Repair α :=
  match Alphabet.narrow t with
  | .error f => .stopped f
  | .ok _ => tell false name applied

theorem afterWriting_embed (name t : Text) (applied : Nat) :
    afterWriting (Alphabet.embed name : Text α) (Alphabet.embed t) applied =
      .told (line false name applied) := by
  rw [afterWriting, Alphabet.narrow_embed]
  exact tell_embed false name applied

theorem exists_afterWriting_eq_stopped {name : Text α} (h : ¬ name.IsText) (t : Text α) (applied : Nat) :
    ∃ f, afterWriting name t applied = .stopped f := by
  rw [afterWriting]
  split
  · exact ⟨_, rfl⟩
  · exact exists_tell_eq_stopped false h applied

theorem isUnwritten_afterWriting (name t : Text α) (applied : Nat) :
    (afterWriting name t applied).isUnwritten = false := by
  rw [afterWriting]
  split
  · rfl
  · exact isUnwritten_tell false name applied

end

/-- A document has corrections, and the file at a place gets them. -/
structure Writes (fs : Files κ) (e : Engine α) (d : Document α) (place : List κ) : Prop where
  resolve : fs.resolve d.name = .ok place
  applied : (corrected e d).2 ≠ 0
  writable : place ∉ fs.readOnly

/-- Whether the file with a name can only be read. -/
def isReadOnly (fs : Files κ) (name : Text α) : Bool :=
  match fs.resolve name with
  | .ok place => fs.readOnly.contains place
  | .error _ => false

/-- Whether a document has corrections that cannot be written. -/
def isHeld (fs : Files κ) (e : Engine α) (dryRun : Bool) (d : Document α) : Bool :=
  (decide ((corrected e d).2 ≠ 0) && !dryRun) && isReadOnly fs d.name

/-- What comes of a document. -/
def repairOf (fs : Files κ) (e : Engine α) (dryRun : Bool) (d : Document α) : Repair α :=
  if isHeld fs e dryRun d then .unwritten d.name .readOnly
  else if decide ((corrected e d).2 ≠ 0) && !dryRun then
    afterWriting d.name (corrected e d).1 (corrected e d).2
  else tell dryRun d.name (corrected e d).2

theorem apply_host (moment : Moment) (e : Engine α) (dryRun : Bool) (d : Document α) (j : Journal)
    (fs : Files κ) :
    ∃ j', (apply (Files.host moment) e dryRun d j).run fs =
      ((((store (Files.host moment) dryRun d (corrected e d).1 (corrected e d).2).run fs).1, j'),
        ((store (Files.host moment) dryRun d (corrected e d).1 (corrected e d).2).run fs).2) :=
  ⟨_, rfl⟩

/-- A file that is not to be written stays as it is. -/
theorem store_of_kept (moment : Moment) {dryRun : Bool} {d : Document α} (t : Text α) {applied : Nat}
    (h : (decide (applied ≠ 0) && !dryRun) = false) (fs : Files κ) :
    (store (Files.host moment) dryRun d t applied).run fs = (tell dryRun d.name applied, fs) := by
  rw [store, h]
  rfl

theorem store_of_error (moment : Moment) {d : Document α} {t : Text α} {applied : Nat} {fs : Files κ}
    {p : FileProblem} (happlied : (decide (applied ≠ 0) && !false) = true)
    (hwrite : fs.write d.name (contents t) = .error p) :
    (store (Files.host moment) false d t applied).run fs = (.unwritten d.name p, fs) := by
  rw [store, if_pos happlied, run_bind, Files.run_write_of_error hwrite]
  rfl

theorem store_of_ok (moment : Moment) {d : Document α} {t : Text α} {applied : Nat} {fs fs' : Files κ}
    (happlied : (decide (applied ≠ 0) && !false) = true)
    (hwrite : fs.write d.name (contents t) = .ok fs') :
    (store (Files.host moment) false d t applied).run fs = (afterWriting d.name t applied, fs') := by
  rw [store, if_pos happlied, run_bind, Files.run_write_of_ok hwrite, afterWriting]
  cases Alphabet.narrow t <;> rfl

/-- In a dry run, files stay as they are. -/
theorem exists_apply_dryRun_eq (fs fs' : Files κ) (moment : Moment) (e : Engine α) (d : Document α)
    (j : Journal) :
    ∃ j', (apply (Files.host moment) e true d j).run fs' = ((repairOf fs e true d, j'), fs') := by
  obtain ⟨j', h⟩ := apply_host moment e true d j fs'
  have hkept : (decide ((corrected e d).2 ≠ 0) && !true) = false := Bool.and_false _
  refine ⟨j', h.trans ?_⟩
  rw [store_of_kept moment _ hkept, repairOf, isHeld, hkept]
  rfl

variable {fs fs' : Files κ}

/-- Applying the corrections of one document. -/
theorem exists_apply_eq (hfs : fs.Alike fs') (moment : Moment) (e : Engine α) {d : Document α}
    {place : List κ} {old : List UInt8} (hplace : fs.resolve d.name = .ok place)
    (hfile : fs.entryAt place = some (.file old)) (j : Journal) :
    ∃ j' fs₁, (apply (Files.host moment) e false d j).run fs' = ((repairOf fs e false d, j'), fs₁) ∧
      fs.Alike fs₁ ∧ ∀ p,
        (Writes fs e d p → fs₁.entryAt p = some (.file (contents (corrected e d).1))) ∧
        (¬ Writes fs e d p → fs₁.entryAt p = fs'.entryAt p) := by
  obtain ⟨j', h⟩ := apply_host moment e false d j fs'
  rw [h]
  by_cases hzero : (corrected e d).2 = 0
  · have hkept : (decide ((corrected e d).2 ≠ 0) && !false) = false := by simp [hzero]
    refine ⟨j', fs', ?_, hfs, fun p => ⟨fun hw => absurd hzero hw.applied, fun _ => rfl⟩⟩
    rw [store_of_kept moment _ hkept, repairOf, isHeld, hkept]
    rfl
  · have happlied : (decide ((corrected e d).2 ≠ 0) && !false) = true := by simp [hzero]
    obtain ⟨old', hfile'⟩ := hfs.exists_file hfile
    have hplace' : fs'.resolve d.name = .ok place := (hfs.resolve_eq d.name).trans hplace
    by_cases hreadOnly : place ∈ fs.readOnly
    · have hwrite := Files.write_eq_readOnly hplace' (hfs.readOnly ▸ hreadOnly)
        (contents (corrected e d).1)
      have hheld : isHeld fs e false d = true := by simp [isHeld, isReadOnly, hplace, hzero, hreadOnly]
      refine ⟨j', fs', ?_, hfs, fun p => ⟨fun hw => ?_, fun _ => rfl⟩⟩
      · rw [store_of_error moment happlied hwrite, repairOf, if_pos hheld]
      · obtain rfl := Except.ok.inj (hplace.symm.trans hw.resolve)
        exact absurd hreadOnly hw.writable
    · obtain ⟨fs₁, hwrite, halike, hentry⟩ := Files.exists_write_eq_ok hplace' hfile'
        (fun hr => hreadOnly (hfs.readOnly ▸ hr)) (contents (corrected e d).1)
      have hheld : ¬ isHeld fs e false d = true := by simp [isHeld, isReadOnly, hplace, hreadOnly]
      refine ⟨j', fs₁, ?_, hfs.trans halike, fun p => ⟨fun hw => ?_, fun hw => ?_⟩⟩
      · rw [store_of_ok moment happlied hwrite, repairOf, if_neg hheld, if_pos happlied]
      · obtain rfl := Except.ok.inj (hplace.symm.trans hw.resolve)
        rw [hentry, if_pos rfl]
      · rw [hentry, if_neg]
        rintro rfl
        exact hw ⟨hplace, hzero, hreadOnly⟩

/-! ## What comes of a document -/

/-- The corrections of a document whose name is a text are those that it has among texts. -/
theorem corrected_embed (s : Settings) (d : Document) :
    corrected (Engine.stock s) (d.embed : Document α) =
      (Alphabet.embed (corrected (Engine.stock s) d).1, (corrected (Engine.stock s) d).2) := by
  rw [corrected, Engine.found_embed]
  exact Correction.applyAll_embed d.text _

omit [DecidableEq α] in
theorem exists_embed_eq {d : Document α} (h : d.name.IsText) :
    ∃ d₀ : Document, d = d₀.embed ∧ d.name = Alphabet.embed d₀.name := by
  obtain ⟨t, ht⟩ := h
  exact ⟨⟨d.text, t, d.languageId⟩, by rw [Document.embed, ← ht], ht⟩

theorem isHeld_iff {e : Engine α} {d : Document α} {place : List κ} (h : fs.resolve d.name = .ok place) :
    isHeld fs e false d = true ↔ (corrected e d).2 ≠ 0 ∧ place ∈ fs.readOnly := by
  simp [isHeld, isReadOnly, h]

theorem isHeld_dryRun (fs : Files κ) (e : Engine α) (d : Document α) : isHeld fs e true d = false := by
  rw [isHeld, Bool.not_true, Bool.and_false, Bool.false_and]

theorem isUnwritten_repairOf (fs : Files κ) (e : Engine α) (dryRun : Bool) (d : Document α) :
    (repairOf fs e dryRun d).isUnwritten = isHeld fs e dryRun d := by
  rw [repairOf]
  split
  · rename_i h
    exact h.symm
  · rename_i h
    rw [Bool.eq_false_iff.mpr h]
    split
    · exact isUnwritten_afterWriting _ _ _
    · exact isUnwritten_tell _ _ _

/-- A document whose name is no text makes the command stop, unless its corrections cannot
be written. -/
theorem exists_repairOf_eq_stopped {e : Engine α} {dryRun : Bool} {d : Document α}
    (hheld : isHeld fs e dryRun d = false) (hname : ¬ d.name.IsText) :
    ∃ f, repairOf fs e dryRun d = .stopped f := by
  rw [repairOf, hheld, if_neg Bool.false_ne_true]
  split
  · exact exists_afterWriting_eq_stopped hname _ _
  · exact exists_tell_eq_stopped dryRun hname _

/-- A document whose name is a text is told of, unless its corrections cannot be
written. -/
theorem repairOf_embed {s : Settings} {dryRun : Bool} {d : Document}
    (hheld : isHeld fs (Engine.stock s) dryRun (d.embed : Document α) = false) :
    repairOf fs (Engine.stock s) dryRun (d.embed : Document α) =
      .told (line dryRun d.name (corrected (Engine.stock s) d).2) := by
  rw [repairOf, hheld, if_neg Bool.false_ne_true, corrected_embed]
  split
  · rename_i h
    obtain rfl : dryRun = false := by simpa using (Bool.and_eq_true_iff.mp h).2
    exact afterWriting_embed d.name _ _
  · exact tell_embed dryRun d.name _

/-- The name of a document that is told of, and the number of its corrections. -/
def told? (e : Engine α) (d : Document α) : Option (Text × Nat) :=
  match Alphabet.narrow d.name with
  | .ok name => some (name, (corrected e d).2)
  | .error _ => none

/-- Where there is nothing that cannot be written, it depends on the names of documents alone
which of them the command tells of and which one makes it stop. -/
theorem repairOf_of_not_isHeld {s : Settings} {dryRun : Bool} {d : Document α}
    (hheld : isHeld fs (Engine.stock s) dryRun d = false) :
    (repairOf fs (Engine.stock s) dryRun d).line? =
        (told? (Engine.stock s) d).map (fun r => line dryRun r.1 r.2) ∧
      (repairOf fs (Engine.stock s) dryRun d).stop?.isSome = (told? (Engine.stock s) d).isNone := by
  by_cases htext : d.name.IsText
  · obtain ⟨d₀, rfl, hname⟩ := exists_embed_eq htext
    rw [repairOf_embed hheld, told?, hname, Alphabet.narrow_embed, corrected_embed]
    exact ⟨rfl, rfl⟩
  · obtain ⟨f, hf⟩ := exists_repairOf_eq_stopped hheld htext
    obtain ⟨g, hg⟩ := Alphabet.exists_of_not_isText htext
    rw [hf, told?, hg]
    exact ⟨rfl, rfl⟩

/-! ## One document after another -/

/-- The documents that the command comes to: those up to the first one that makes it
stop. -/
def reached (fs : Files κ) (e : Engine α) (dryRun : Bool) : List (Document α) → List (Document α)
  | [] => []
  | d :: ds => if (repairOf fs e dryRun d).stop?.isSome then [d] else d :: reached fs e dryRun ds

theorem reached_cons_of_stopped {e : Engine α} {dryRun : Bool} {d : Document α} {f : Utf8.Unwritable}
    (h : (repairOf fs e dryRun d).stop? = some f) (ds : List (Document α)) :
    reached fs e dryRun (d :: ds) = [d] := by
  rw [reached, h]
  rfl

theorem reached_cons_of_done {e : Engine α} {dryRun : Bool} {d : Document α}
    (h : (repairOf fs e dryRun d).stop? = none) (ds : List (Document α)) :
    reached fs e dryRun (d :: ds) = d :: reached fs e dryRun ds := by
  rw [reached, h]
  rfl

theorem reached_eq_self {e : Engine α} {dryRun : Bool} {ds : List (Document α)}
    (h : ∀ d ∈ ds, (repairOf fs e dryRun d).stop? = none) : reached fs e dryRun ds = ds := by
  induction ds with
  | nil => rfl
  | cons d ds ih =>
    obtain ⟨hd, hds⟩ := List.forall_mem_cons.mp h
    rw [reached_cons_of_done hd, ih hds]

theorem mem_of_mem_reached {e : Engine α} {dryRun : Bool} {ds : List (Document α)} {d : Document α}
    (h : d ∈ reached fs e dryRun ds) : d ∈ ds := by
  induction ds with
  | nil => exact h
  | cons d' ds ih =>
    rw [reached] at h
    split at h
    · exact List.mem_singleton.mp h ▸ List.mem_cons_self
    · rcases List.mem_cons.mp h with rfl | h
      · exact List.mem_cons_self
      · exact List.mem_cons_of_mem _ (ih h)

theorem reached_congr {e : Engine α} {dryRun dryRun' : Bool} {ds : List (Document α)}
    (h : ∀ d ∈ ds, (repairOf fs e dryRun d).stop?.isSome = (repairOf fs e dryRun' d).stop?.isSome) :
    reached fs e dryRun ds = reached fs e dryRun' ds := by
  induction ds with
  | nil => rfl
  | cons d ds ih =>
    obtain ⟨hd, hds⟩ := List.forall_mem_cons.mp h
    rw [reached, reached, hd, ih hds]

theorem exists_applyAll_dryRun_eq (fs fs' : Files κ) (moment : Moment) (e : Engine α)
    (ds : List (Document α)) (j : Journal) :
    ∃ j', (applyAll (Files.host moment) e true ds j).run fs' =
      (((reached fs e true ds).map (repairOf fs e true), j'), fs') := by
  induction ds generalizing j with
  | nil => exact ⟨j, rfl⟩
  | cons d ds ih =>
    obtain ⟨j₁, h₁⟩ := exists_apply_dryRun_eq fs fs' moment e d j
    cases hstop : (repairOf fs e true d).stop? with
    | some f =>
      rw [run_applyAll_of_stopped h₁ hstop, reached_cons_of_stopped hstop]
      exact ⟨j₁, rfl⟩
    | none =>
      obtain ⟨j₂, h₂⟩ := ih j₁
      rw [run_applyAll_of_done h₁ hstop h₂, reached_cons_of_done hstop]
      exact ⟨j₂, rfl⟩

/-- Applying the corrections of documents that were read from files: what a file holds
in the end was written for one of them, or was there before. -/
theorem exists_applyAll_eq (hfs : fs.Alike fs') (moment : Moment) (e : Engine α) (ds : List (Document α))
    (hds : ∀ d ∈ ds, ∃ place bytes, fs.resolve d.name = .ok place ∧
      fs.entryAt place = some (.file bytes)) (j : Journal) :
    ∃ j' fs₂, (applyAll (Files.host moment) e false ds j).run fs' =
        (((reached fs e false ds).map (repairOf fs e false), j'), fs₂) ∧
      fs.Alike fs₂ ∧
      ∀ p, (∃ d ∈ reached fs e false ds, Writes fs e d p ∧
          fs₂.entryAt p = some (.file (contents (corrected e d).1))) ∨
        ((∀ d ∈ reached fs e false ds, ¬ Writes fs e d p) ∧ fs₂.entryAt p = fs'.entryAt p) := by
  induction ds generalizing fs' j with
  | nil => exact ⟨j, fs', rfl, hfs, fun p => .inr ⟨nofun, rfl⟩⟩
  | cons d ds ih =>
    obtain ⟨⟨place, old, hplace, hfile⟩, hds⟩ := List.forall_mem_cons.mp hds
    obtain ⟨j₁, fs₁, h₁, halike, hentry⟩ := exists_apply_eq hfs moment e hplace hfile j
    cases hstop : (repairOf fs e false d).stop? with
    | some f =>
      rw [reached_cons_of_stopped hstop]
      refine ⟨j₁, fs₁, run_applyAll_of_stopped h₁ hstop ds, halike, fun p => ?_⟩
      by_cases hw : Writes fs e d p
      · exact .inl ⟨d, List.mem_singleton_self d, hw, (hentry p).1 hw⟩
      · exact .inr ⟨List.forall_mem_singleton.mpr hw, (hentry p).2 hw⟩
    | none =>
      obtain ⟨j₂, fs₂, h₂, halike₂, hrest⟩ := ih halike hds j₁
      rw [reached_cons_of_done hstop]
      refine ⟨j₂, fs₂, run_applyAll_of_done h₁ hstop h₂, halike₂, fun p => ?_⟩
      rcases hrest p with ⟨d', hd', hw, he⟩ | ⟨hno, he⟩
      · exact .inl ⟨d', List.mem_cons_of_mem _ hd', hw, he⟩
      · by_cases hw : Writes fs e d p
        · exact .inl ⟨d, List.mem_cons_self, hw, he.trans ((hentry p).1 hw)⟩
        · exact .inr ⟨List.forall_mem_cons.mpr ⟨hw, hno⟩, he.trans ((hentry p).2 hw)⟩

/-! ## Endings -/

omit [DecidableEq α] in
/-- Unless it stops, the command ends by the files that it cannot read or write. -/
theorem exit_ending_iff (is : List (Intake α)) {rs : List (Repair α)} (h : ∀ r ∈ rs, r.stop? = none)
    (j : Journal) :
    ((ending is rs j).exit = .ok 0 ↔ ¬ (is.any (·.isUnread) || rs.any (·.isUnwritten)) = true) ∧
      ((ending is rs j).exit = .ok 2 ↔ (is.any (·.isUnread) || rs.any (·.isUnwritten)) = true) := by
  have hexit : (ending is rs j).exit = .ok (exitCode is rs) := by
    rw [ending]
    simp only [List.findSome?_eq_none_iff.mpr h]
  rw [hexit, exitCode]
  split
  · rename_i htrouble
    exact ⟨⟨nofun, fun h' => absurd htrouble h'⟩, fun _ => htrouble, fun _ => rfl⟩
  · rename_i htrouble
    exact ⟨⟨fun _ => htrouble, fun _ => rfl⟩, nofun, fun h' => absurd h' htrouble⟩

/-- In a dry run, the command ends by the files that it cannot read, if the names of all
documents are texts. -/
theorem exit_dryRun_iff (is : List (Intake α)) {s : Settings} {ds : List (Document α)}
    (htext : ∀ d ∈ ds, d.name.IsText) (j : Journal) :
    ((ending is ((reached fs (Engine.stock s) true ds).map (repairOf fs (Engine.stock s) true)) j).exit =
        .ok 0 ↔ ¬ is.any (·.isUnread) = true) ∧
      ((ending is ((reached fs (Engine.stock s) true ds).map (repairOf fs (Engine.stock s) true)) j).exit =
        .ok 2 ↔ is.any (·.isUnread) = true) := by
  have hrepair : ∀ r ∈ ds.map (repairOf fs (Engine.stock s) true), r.stop? = none ∧ r.isUnwritten = false := by
    refine List.forall_mem_map.mpr fun d hd => ?_
    obtain ⟨d₀, rfl, -⟩ := exists_embed_eq (htext d hd)
    rw [repairOf_embed (isHeld_dryRun fs _ _)]
    exact ⟨rfl, rfl⟩
  have hunwritten := List.any_eq_false.mpr fun r hr => Bool.eq_false_iff.mp (hrepair r hr).2
  rw [reached_eq_self fun d hd => (hrepair _ (List.mem_map_of_mem hd)).1]
  have hiff := exit_ending_iff is (fun r hr => (hrepair r hr).1) j
  rwa [hunwritten, Bool.or_false] at hiff

/-- The lines that are printed about documents. -/
theorem filterMap_line?_repairOf {s : Settings} {dryRun : Bool} {ds : List (Document α)}
    (h : ∀ d ∈ ds, isHeld fs (Engine.stock s) dryRun d = false) :
    (ds.map (repairOf fs (Engine.stock s) dryRun)).filterMap (·.line?) =
      (ds.filterMap (told? (Engine.stock s))).map fun r => line dryRun r.1 r.2 := by
  rw [List.filterMap_map, List.map_filterMap]
  exact List.filterMap_congr fun d hd => (repairOf_of_not_isHeld (h d hd)).1

end Worksheet.Fix
