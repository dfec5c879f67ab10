import Worksheet.CommandLine.Intake
import Worksheet.Proofs.Files

/-!
# Taking in files

On a host where reading changes nothing (`Host.Quiet`), the files of a command are taken
in one by one, each by its name and its contents alone (`Intake.run_all`). A name is
refused if no file can have it (`Intake.refusal?_of`), a file counts as unread if it
cannot be read as a text (`Intake.isUnread_of`), and the documents are those of its texts
that count as HTML (`Intake.mem_documents`).
-/

namespace Worksheet

variable {σ α : Type}

/-- Two steps, one after the other. -/
theorem run_bind {β γ : Type} (x : StateM σ β) (f : β → StateM σ γ) (st : σ) :
    (x >>= f).run st = (f (x.run st).1).run (x.run st).2 := rfl

theorem run_pure {β : Type} (b : β) (st : σ) : (pure b : StateM σ β).run st = (b, st) := rfl

/-- What reading the file with a name gives. -/
def Host.look (h : Host (StateM σ) α) (st : σ) (name : Text α) : Except FileProblem (List UInt8) :=
  ((h.read name).run st).1

variable [DecidableEq α] [Alphabet α]

/-- Reading a file changes nothing, and names are refused for what they are made of. What
files there are, and what else can keep one from being read, is left open. -/
structure Host.Quiet (h : Host (StateM σ) α) : Prop where
  unchanged (name : Text α) (st : σ) : ((h.read name).run st).2 = st
  refused (name : Text α) (st : σ) {p : FileProblem} (hp : p.refuses = true) :
    h.look st name = .error p ↔ FileName.refusal? name = some p

/-- A tree of files is such a host. -/
theorem Files.quiet_host {κ : Type} [DecidableEq κ] [Naming α κ] (moment : Moment) :
    (Files.host moment : Host (StateM (Files κ)) α).Quiet :=
  ⟨fun _ _ => rfl, fun _ fs _ hp => fs.read_eq_error_iff hp⟩

theorem Files.run_write_of_ok {κ : Type} [DecidableEq κ] [Naming α κ] {fs fs' : Files κ} {name : Text α}
    {bytes : List UInt8} (h : fs.write name bytes = .ok fs') (moment : Moment) :
    ((Files.host moment).write name bytes).run fs = (.ok (), fs') := by
  simp only [Files.host, StateT.run, h]

theorem Files.run_write_of_error {κ : Type} [DecidableEq κ] [Naming α κ] {fs : Files κ} {name : Text α}
    {bytes : List UInt8} {p : FileProblem} (h : fs.write name bytes = .error p) (moment : Moment) :
    ((Files.host moment).write name bytes).run fs = (.error p, fs) := by
  simp only [Files.host, StateT.run, h]

namespace Intake

/-- What becomes of files, by what reading them gives. -/
def ofNames (look : Text α → Except FileProblem (List UInt8)) (s : Settings) (names : List (Text α)) :
    List (Intake α) :=
  names.map fun n => of s n (look n)

/-- A file can be read, and its bytes are a text. -/
def HasText (look : Text α → Except FileProblem (List UInt8)) (name : Text α) : Prop :=
  ∃ bytes text, look name = .ok bytes ∧ Utf8.decode bytes = .ok text

/-- A file holds a document: its bytes are the text, and it counts as an HTML document. -/
structure Holds (look : Text α → Except FileProblem (List UInt8)) (s : Settings) (d : Document α) :
    Prop where
  read : ∃ bytes, look d.name = .ok bytes ∧ Utf8.decode bytes = .ok d.text
  language : d.languageId = none
  html : d.isHtmlLike s = true

/-- Whatever keeps a file from being read, its name is not refused. -/
def Accepts (look : Text α → Except FileProblem (List UInt8)) (name : Text α) : Prop :=
  ∀ p, look name = .error p → p.refuses = false

/-- Taking in files changes nothing. -/
theorem run_all {h : Host (StateM σ) α} (hq : h.Quiet) (s : Settings) (names : List (Text α)) (st : σ) :
    (all h s names).run st = (ofNames (h.look st) s names, st) := by
  rw [all]
  induction names with
  | nil => rfl
  | cons n names ih =>
    simp only [List.mapM_cons, run_bind, run_pure, hq.unchanged, ih]
    rfl

variable {look : Text α → Except FileProblem (List UInt8)} {s : Settings} {name : Text α}

theorem of_eq_document_iff {d : Document α} :
    of s name (look name) = document d ↔ d.name = name ∧ Holds look s d := by
  constructor
  · intro h
    unfold of at h
    split at h
    · split at h
      · exact nomatch h
      · exact nomatch h
    · rename_i bytes hread
      split at h
      · exact nomatch h
      · rename_i text hdecode
        simp only at h
        split at h
        · rename_i hhtml
          obtain rfl := Intake.document.inj h
          exact ⟨rfl, ⟨bytes, hread, hdecode⟩, rfl, hhtml⟩
        · exact nomatch h
  · rintro ⟨rfl, ⟨bytes, hread, hdecode⟩, hlanguage, hhtml⟩
    obtain ⟨text, name, language⟩ := d
    obtain rfl : language = none := hlanguage
    simp only [of, hread, hdecode]
    exact if_pos hhtml

/-- A file holds at most one document. -/
theorem Holds.eq {d d' : Document α} (h : Holds look s d) (h' : Holds look s d')
    (hname : d.name = d'.name) : d = d' := by
  have hd := of_eq_document_iff.mpr ⟨hname, h⟩
  have hd' := of_eq_document_iff.mpr ⟨rfl, h'⟩
  exact Intake.document.inj (hd.symm.trans hd')

/-- A name is refused if and only if no file can have it. -/
theorem refusal?_of {f : Fault} :
    (of s name (look name)).refusal? = some f ↔
      ∃ p, p.refuses = true ∧ look name = .error p ∧ f = .ofFile p name := by
  unfold of
  split
  · rename_i p h
    split
    · rename_i hp
      refine ⟨fun hf => ⟨p, hp, h, (Option.some.inj hf).symm⟩, ?_⟩
      rintro ⟨q, -, hq, rfl⟩
      obtain rfl := Except.error.inj (h.symm.trans hq)
      rfl
    · rename_i hp
      refine ⟨nofun, ?_⟩
      rintro ⟨q, hq, he, -⟩
      obtain rfl := Except.error.inj (h.symm.trans he)
      exact absurd hq hp
  · rename_i bytes h
    split
    · exact ⟨nofun, fun ⟨_, _, he, _⟩ => nomatch h.symm.trans he⟩
    · simp only
      split
      · exact ⟨nofun, fun ⟨_, _, he, _⟩ => nomatch h.symm.trans he⟩
      · exact ⟨nofun, fun ⟨_, _, he, _⟩ => nomatch h.symm.trans he⟩

theorem isUnread_of (h : Accepts look name) :
    (of s name (look name)).isUnread = true ↔ ¬ HasText look name := by
  unfold of
  split
  · rename_i p hread
    rw [h p hread, if_neg Bool.false_ne_true]
    refine ⟨fun _ => ?_, fun _ => rfl⟩
    rintro ⟨bytes, text, hbytes, -⟩
    exact nomatch hread.symm.trans hbytes
  · rename_i bytes hread
    split
    · rename_i f hdecode
      refine ⟨fun _ => ?_, fun _ => rfl⟩
      rintro ⟨bytes', text, hbytes, htext⟩
      obtain rfl := Except.ok.inj (hread.symm.trans hbytes)
      exact nomatch hdecode.symm.trans htext
    · rename_i text hdecode
      have htext : HasText look name := ⟨bytes, text, hread, hdecode⟩
      simp only
      split
      · exact ⟨nofun, fun hno => absurd htext hno⟩
      · exact ⟨nofun, fun hno => absurd htext hno⟩

theorem mem_documents {names : List (Text α)} {d : Document α} :
    d ∈ documents (ofNames look s names) ↔ d.name ∈ names ∧ Holds look s d := by
  simp only [documents, ofNames, List.mem_filterMap, List.mem_map]
  constructor
  · rintro ⟨_, ⟨n, hn, rfl⟩, h⟩
    split at h
    · rename_i d' hd
      obtain rfl := Option.some.inj h
      obtain ⟨rfl, hdocument⟩ := of_eq_document_iff.mp hd
      exact ⟨hn, hdocument⟩
    · exact nomatch h
  · rintro ⟨hn, hdocument⟩
    exact ⟨document d, ⟨d.name, hn, of_eq_document_iff.mpr ⟨rfl, hdocument⟩⟩, rfl⟩

theorem ofNames_append_cons (before : List (Text α)) (n : Text α) (after : List (Text α)) :
    ofNames look s (before ++ n :: after) =
      ofNames look s before ++ of s n (look n) :: ofNames look s after := List.map_append

theorem ofNames_append (before after : List (Text α)) :
    ofNames look s (before ++ after) = ofNames look s before ++ ofNames look s after := List.map_append

omit [DecidableEq α] in
theorem documents_append (is is' : List (Intake α)) :
    documents (is ++ is') = documents is ++ documents is' := List.filterMap_append

/-- A document stands among the others where its name stands. -/
theorem documents_append_cons {d : Document α} (h : Holds look s d) (before after : List (Text α)) :
    documents (ofNames look s (before ++ d.name :: after)) =
      documents (ofNames look s before) ++ d :: documents (ofNames look s after) := by
  have hdocument : of s d.name (look d.name) = document d := of_eq_document_iff.mpr ⟨rfl, h⟩
  rw [ofNames_append_cons, hdocument, documents_append]
  rfl

theorem any_isUnread_iff {names : List (Text α)} (h : ∀ n ∈ names, Accepts look n) :
    (ofNames look s names).any (·.isUnread) = true ↔ ¬ ∀ n ∈ names, HasText look n := by
  rw [ofNames, List.any_map, List.any_eq_true]
  simp only [not_forall]
  refine exists_congr fun n => ⟨fun ⟨hn, hunread⟩ => ?_, fun ⟨hn, htext⟩ => ?_⟩
  · exact ⟨hn, (isUnread_of (h n hn)).mp hunread⟩
  · exact ⟨hn, (isUnread_of (h n hn)).mpr htext⟩

/-- No name is refused if and only if files can have all of them. -/
theorem findSome?_refusal?_eq_none_iff {names : List (Text α)} :
    (ofNames look s names).findSome? (·.refusal?) = none ↔ ∀ n ∈ names, Accepts look n := by
  rw [List.findSome?_eq_none_iff, ofNames, List.forall_mem_map]
  refine forall₂_congr fun n _ => ⟨fun h p hp => ?_, fun h => ?_⟩
  · refine Bool.eq_false_iff.mpr fun hrefuses => ?_
    exact Option.some_ne_none _ ((refusal?_of.mpr ⟨p, hrefuses, hp, rfl⟩).symm.trans h)
  · refine Option.eq_none_iff_forall_ne_some.mpr fun f hf => ?_
    obtain ⟨p, hrefuses, hp, -⟩ := refusal?_of.mp hf
    exact absurd hrefuses (Bool.eq_false_iff.mp (h p hp))

/-- The fault for which names are refused is that of one of them. -/
theorem exists_findSome?_refusal? {names : List (Text α)} (hbad : ∃ n ∈ names, ¬ Accepts look n) :
    ∃ n ∈ names, ∃ p, p.refuses = true ∧ look n = .error p ∧
      (ofNames look s names).findSome? (·.refusal?) = some (.ofFile p n) := by
  cases h : (ofNames look s names).findSome? (·.refusal?) with
  | none =>
    obtain ⟨n, hn, hbad⟩ := hbad
    exact absurd (findSome?_refusal?_eq_none_iff.mp h n hn) hbad
  | some f =>
    obtain ⟨_, hi, hf⟩ := List.exists_of_findSome?_eq_some h
    obtain ⟨n', hn', rfl⟩ := List.mem_map.mp hi
    obtain ⟨p, hrefuses, hp, rfl⟩ := refusal?_of.mp hf
    exact ⟨n', hn', p, hrefuses, hp, rfl⟩

end Intake

/-- A host refuses a name if and only if no file can have it. -/
theorem Host.Quiet.accepts_iff {h : Host (StateM σ) α} (hq : h.Quiet) {st : σ} {name : Text α} :
    Intake.Accepts (h.look st) name ↔ FileName.refusal? name = none := by
  rw [Option.eq_none_iff_forall_ne_some]
  refine forall_congr' fun p => ⟨fun h hp => ?_, fun h hp => ?_⟩
  · have hrefuses := FileName.refuses_of_refusal? hp
    exact absurd hrefuses (Bool.eq_false_iff.mp (h ((hq.refused name st hrefuses).mpr hp)))
  · exact Bool.eq_false_iff.mpr fun hrefuses => h ((hq.refused name st hrefuses).mp hp)

end Worksheet
