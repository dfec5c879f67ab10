import Worksheet.Proofs.CommandLine.Command

/-!
# Files that are no HTML documents

A file whose name is not that of an HTML document is left alone, once it has been read as
a text: without it a command ends alike, but for its journal
(`Command.alike_of_skipped`). Where its bytes are no text there is a complaint about it
(`Command.exists_err_of_unread`), unless a name before it has already been refused. Which
files make no difference is therefore told by `Command.ignores_iff`.
-/

namespace Worksheet

variable {σ ρ α : Type} [Alphabet α]

/-- A command called with names does not notice one of them: it ends alike without. -/
def Ending.Ignores (run : List (Text α) → StateM σ Ending) (st : σ) (before : List (Text α)) (n : Text α)
    (after : List (Text α)) : Prop :=
  Alike ((run (before ++ n :: after)).run st) ((run (before ++ after)).run st)

namespace Intake

/-- A file that is no document makes no difference to the documents. -/
theorem documents_insert {i : Intake α} (h : documents [i] = []) (is is' : List (Intake α)) :
    documents (is ++ i :: is') = documents (is ++ is') := by
  rw [List.append_cons, documents_append, documents_append, h, List.append_nil, documents_append]

theorem complaints_append (is is' : List (Intake α)) :
    complaints (is ++ is') = complaints is ++ complaints is' := List.filterMap_append

/-- What comes behind a refused name does not count. -/
theorem accepted_append_of_refused {is : List (Intake α)} {f : Fault}
    (h : is.findSome? (·.refusal?) = some f) (is' : List (Intake α)) :
    accepted (is ++ is') = accepted is := by
  induction is with
  | nil => exact nomatch h
  | cons i is ih =>
    simp only [accepted, List.cons_append, List.takeWhile_cons]
    cases hi : i.refusal? with
    | some g => rfl
    | none =>
      rw [List.findSome?_cons, hi] at h
      exact congrArg (i :: ·) (ih h)

theorem accepted_append_of_not_refused {is : List (Intake α)} (h : is.findSome? (·.refusal?) = none)
    (is' : List (Intake α)) : accepted (is ++ is') = is ++ accepted is' := by
  refine List.takeWhile_append_of_pos fun i hi => ?_
  rw [List.findSome?_eq_none_iff.mp h i hi]
  rfl

variable [DecidableEq α]

/-- A file is left alone if its bytes are a text and its name has none of the endings. -/
theorem of_eq_skipped {s : Settings} {name : Text α} {bytes : List UInt8} {t : Text}
    (ht : Utf8.decode bytes = .ok t)
    (hname : ∀ x ∈ s.extensions, ¬ (Alphabet.embed (Text.lower x) : Text α) <:+ Alphabet.lower name) :
    of s name (.ok bytes) = skipped name := by
  have hhtml : Document.isHtmlLike { text := t, name } s = false := by
    rw [Document.isHtmlLike, Bool.false_or]
    exact List.any_eq_false.mpr fun x hx h => hname x hx (List.isSuffixOf_iff_suffix.mp h)
  rw [of]
  simp only [ht]
  rw [hhtml]
  rfl

theorem of_eq_unread {s : Settings} {name : Text α} {bytes : List UInt8} {f : Utf8.Failure}
    (hf : Utf8.decode bytes = .error f) :
    of s name (.ok bytes) = unread name (.notEncoded f) := by
  rw [of]
  simp only [hf]

end Intake

namespace Command

variable (c : Command σ ρ α)

/-- Files that are left alone make no difference. -/
theorem alike_of_skipped (is : List (Intake α)) (n : Text α) (is' : List (Intake α)) (st : σ) :
    Ending.Alike (c.endingOf (is ++ .skipped n :: is') st) (c.endingOf (is ++ is') st) := by
  have hrefusal : (is ++ .skipped n :: is').findSome? (·.refusal?) =
      (is ++ is').findSome? (·.refusal?) := by
    rw [List.findSome?_append, List.findSome?_append]
    rfl
  cases hf : (is ++ is').findSome? (·.refusal?) with
  | some f =>
    rw [c.endingOf_of_refused (hrefusal.trans hf), c.endingOf_of_refused hf]
    refine ⟨rfl, rfl, ?_, rfl⟩
    show Intake.complaints (Intake.accepted _) = Intake.complaints (Intake.accepted _)
    -- What counts ends at the refused name, which stands before the file or behind it.
    cases his : is.findSome? (·.refusal?) with
    | some g =>
      rw [Intake.accepted_append_of_refused his, Intake.accepted_append_of_refused his]
    | none =>
      rw [Intake.accepted_append_of_not_refused his, Intake.accepted_append_of_not_refused his,
        Intake.complaints_append, Intake.complaints_append]
      rfl
  | none =>
    have hdocuments := Intake.documents_insert (i := .skipped n) rfl is is'
    have hcomplaints : Intake.complaints (is ++ .skipped n :: is') = Intake.complaints (is ++ is') := by
      rw [Intake.complaints_append, Intake.complaints_append]
      rfl
    have hunread : (is ++ .skipped n :: is').any (·.isUnread) = (is ++ is').any (·.isUnread) := by
      rw [List.any_append, List.any_append, List.any_cons]
      rfl
    rw [c.endingOf_of_accepted (hrefusal.trans hf), c.endingOf_of_accepted hf, hdocuments, ending,
      ending, hcomplaints, hunread]
    exact ⟨rfl, rfl, rfl, rfl⟩

/-- Nothing that comes behind a refused name makes a difference. -/
theorem alike_of_refused {is : List (Intake α)} {f : Fault} (h : is.findSome? (·.refusal?) = some f)
    (is' is'' : List (Intake α)) (st : σ) :
    Ending.Alike (c.endingOf (is ++ is') st) (c.endingOf (is ++ is'') st) := by
  have hrefusal (is' : List (Intake α)) : (is ++ is').findSome? (·.refusal?) = some f := by
    rw [List.findSome?_append, h, Option.some_or]
  rw [c.endingOf_of_refused (hrefusal is'), c.endingOf_of_refused (hrefusal is'')]
  refine ⟨rfl, rfl, ?_, rfl⟩
  show Intake.complaints (Intake.accepted _) = Intake.complaints (Intake.accepted _)
  rw [Intake.accepted_append_of_refused h, Intake.accepted_append_of_refused h]

/-- There is a complaint about a file that is no text. -/
theorem exists_err_of_unread {is : List (Intake α)} (h : is.findSome? (·.refusal?) = none) (n : Text α)
    (f : Fault) (is' : List (Intake α)) (st : σ) :
    ∃ front back,
      (c.endingOf (is ++ .unread n f :: is') st).1.err =
        front ++ Intake.complaint (lit "read") n f :: back ∧
      (c.endingOf (is ++ is') st).1.err = front ++ back := by
  have hrefusal (is' : List (Intake α)) :
      (is ++ is').findSome? (·.refusal?) = is'.findSome? (·.refusal?) := by
    rw [List.findSome?_append, h, Option.none_or]
  cases hf : is'.findSome? (·.refusal?) with
  | some g =>
    have hwith : (is ++ .unread n f :: is').findSome? (·.refusal?) = some g := (hrefusal _).trans hf
    refine ⟨Intake.complaints is, Intake.complaints (Intake.accepted is'), ?_, ?_⟩
    · rw [c.endingOf_of_refused hwith, Ending.refused, Intake.accepted_append_of_not_refused h,
        Intake.complaints_append]
      rfl
    · rw [c.endingOf_of_refused ((hrefusal _).trans hf), Ending.refused,
        Intake.accepted_append_of_not_refused h, Intake.complaints_append]
  | none =>
    have hwith : (is ++ .unread n f :: is').findSome? (·.refusal?) = none := (hrefusal _).trans hf
    have hdocuments := Intake.documents_insert (i := .unread n f) rfl is is'
    refine ⟨Intake.complaints is,
      Intake.complaints is' ++ c.err (c.result (Intake.documents (is ++ is')) st).1, ?_, ?_⟩
    · rw [c.endingOf_of_accepted hwith, ending, hdocuments, Intake.complaints_append, List.append_assoc]
      rfl
    · rw [c.endingOf_of_accepted ((hrefusal _).trans hf), ending, Intake.complaints_append,
        List.append_assoc]

theorem exit_endingOf {is : List (Intake α)} (h : is.findSome? (·.refusal?) = none) (st : σ) :
    (c.endingOf is st).1.exit = match c.stop (c.result (Intake.documents is) st).1 with
      | none => .ok (c.number (is.any (·.isUnread)) (c.result (Intake.documents is) st).1)
      | some g => .error (.notWritable g) := by
  rw [c.endingOf_of_accepted h]
  rfl

/-- A file that is no text decides about the number, unless the command stops before it gives
one. It does so without the file as well. -/
theorem exit_of_unread {is is' : List (Intake α)} (h : is.findSome? (·.refusal?) = none)
    (h' : is'.findSome? (·.refusal?) = none) (n : Text α) (f : Fault) (st : σ) :
    (c.endingOf (is ++ .unread n f :: is') st).1.exit = .ok Ending.trouble ∨
      (¬ ∀ t : Text α, t.IsText) ∧ ∃ g,
        (c.endingOf (is ++ .unread n f :: is') st).1.exit = .error (.notWritable g) ∧
        (c.endingOf (is ++ is') st).1.exit = .error (.notWritable g) := by
  have hwith : (is ++ .unread n f :: is').findSome? (·.refusal?) = none := by
    rw [List.findSome?_append, h]
    exact h'
  have hwithout : (is ++ is').findSome? (·.refusal?) = none := by
    rw [List.findSome?_append, h]
    exact h'
  have hdocuments := Intake.documents_insert (i := .unread n f) rfl is is'
  have hunread : (is ++ .unread n f :: is').any (·.isUnread) = true := by
    rw [List.any_append, List.any_cons]
    exact Bool.or_true _
  rw [c.exit_endingOf hwith, c.exit_endingOf hwithout, hdocuments, hunread, c.number_true]
  cases hstop : c.stop (c.result (Intake.documents (is ++ is')) st).1 with
  | none => exact .inl rfl
  | some g =>
    refine .inr ⟨fun htext => ?_, g, rfl, rfl⟩
    exact nomatch hstop.symm.trans (c.stop_work htext _ _ _)

variable [DecidableEq α] {h : Host (StateM σ) α} (hq : h.Quiet) {s : Settings} {st : σ} {n : Text α}
include hq

theorem ignores_iff_alike (before after : List (Text α)) (j : Journal) :
    Ending.Ignores (c.run h s · j) st before n after ↔
      Ending.Alike
        (c.endingOf (Intake.ofNames (h.look st) s before ++
          Intake.of s n (h.look st n) :: Intake.ofNames (h.look st) s after) st)
        (c.endingOf (Intake.ofNames (h.look st) s before ++ Intake.ofNames (h.look st) s after) st) := by
  have hwith := c.alike_run hq s (before ++ n :: after) j st
  have hwithout := c.alike_run hq s (before ++ after) j st
  rw [Intake.ofNames_append_cons] at hwith
  rw [Intake.ofNames_append] at hwithout
  exact ⟨fun h => (hwith.symm.trans h).trans hwithout, fun h => (hwith.trans h).trans hwithout.symm⟩

/-- A command does not notice a file that is no HTML document if and only if it is a text, or
a name before it is one that no file can have. -/
theorem ignores_iff {bytes : List UInt8} (hread : h.look st n = .ok bytes)
    (hname : ∀ x ∈ s.extensions, ¬ (Alphabet.embed (Text.lower x) : Text α) <:+ Alphabet.lower n)
    (before after : List (Text α)) (j : Journal) :
    Ending.Ignores (c.run h s · j) st before n after ↔
      (∃ t, Utf8.decode bytes = .ok t) ∨ ∃ m ∈ before, FileName.refusal? m ≠ none := by
  have hbad : (∃ m ∈ before, FileName.refusal? m ≠ none) ↔ ∃ m ∈ before, ¬ Intake.Accepts (h.look st) m :=
    exists_congr fun m => and_congr_right' (not_congr hq.accepts_iff.symm)
  rw [hbad, c.ignores_iff_alike hq, hread]
  constructor
  · intro halike
    refine or_iff_not_imp_right.mpr fun hbefore => ?_
    cases hdecode : Utf8.decode bytes with
    | ok t => exact ⟨t, rfl⟩
    | error f =>
      have hnone : (Intake.ofNames (h.look st) s before).findSome? (·.refusal?) = none :=
        Intake.findSome?_refusal?_eq_none_iff.mpr fun m hm => by_contra fun hbad => hbefore ⟨m, hm, hbad⟩
      rw [Intake.of_eq_unread hdecode] at halike
      obtain ⟨front, back, hwith, hwithout⟩ := c.exists_err_of_unread hnone n (.notEncoded f)
        (Intake.ofNames (h.look st) s after) st
      -- Equal complaints would be as many.
      have hlength := congrArg List.length (hwith.symm.trans (halike.err.trans hwithout))
      simp only [List.length_append, List.length_cons] at hlength
      omega
  · rintro (⟨t, ht⟩ | hbad)
    · rw [Intake.of_eq_skipped ht hname]
      exact c.alike_of_skipped _ n _ st
    · obtain ⟨m, -, p, -, -, hrefusal⟩ := Intake.exists_findSome?_refusal? (s := s) hbad
      exact c.alike_of_refused hrefusal _ _ st

end Command

/-- A task does not notice a file that is no HTML document if and only if it is a text, or a
name before it is one that no file can have. If it is no text, and files can have all the
other names, there is a complaint about it, and the task ends with the number for trouble,
unless it stops, as it does without the file, at something that cannot be written. -/
theorem Task.ignores_iff_exists_decode [DecidableEq α] {h : Host (StateM σ) α} (hq : h.Quiet)
    (e : Engine α) {st : σ} {n : Text α} {bytes : List UInt8} (hread : h.look st n = .ok bytes)
    (hname : ∀ x ∈ e.settings.extensions, ¬ (Alphabet.embed (Text.lower x) : Text α) <:+ Alphabet.lower n)
    (task : Task) (before after : List (Text α)) (j : Journal) :
    (Ending.Ignores (task.run h e j) st before n after ↔
      (∃ t, Utf8.decode bytes = .ok t) ∨ ∃ m ∈ before, FileName.refusal? m ≠ none) ∧
    ∀ f, Utf8.decode bytes = .error f → (∀ m ∈ before ++ after, FileName.refusal? m = none) →
      (((task.run h e j (before ++ n :: after)).run st).1.exit = .ok 2 ∨
        (¬ ∀ t : Text α, t.IsText) ∧ ∃ g,
          ((task.run h e j (before ++ n :: after)).run st).1.exit = .error (.notWritable g) ∧
          ((task.run h e j (before ++ after)).run st).1.exit = .error (.notWritable g)) ∧
      Intake.complaint (lit "read") n (.notEncoded f) ∈
        ((task.run h e j (before ++ n :: after)).run st).1.err := by
  obtain ⟨ρ, c, hrun⟩ := Task.exists_run_eq h e j task
  have hrun : task.run h e j = (c.run h e.settings · j) := funext hrun
  rw [hrun]
  refine ⟨c.ignores_iff hq hread hname before after j, fun f hf hnames => ?_⟩
  have hgood {names : List (Text α)} (hsub : names ⊆ before ++ after) :
      (Intake.ofNames (h.look st) e.settings names).findSome? (·.refusal?) = none :=
    Intake.findSome?_refusal?_eq_none_iff.mpr fun m hm => hq.accepts_iff.mpr (hnames m (hsub hm))
  have hbefore := hgood (List.subset_append_left before after)
  have hafter := hgood (List.subset_append_right before after)
  have hwith := c.alike_run hq e.settings (before ++ n :: after) j st
  have hwithout := c.alike_run hq e.settings (before ++ after) j st
  rw [Intake.ofNames_append_cons, hread, Intake.of_eq_unread hf] at hwith
  rw [Intake.ofNames_append] at hwithout
  obtain ⟨front, back, herr, -⟩ := c.exists_err_of_unread hbefore n (.notEncoded f)
    (Intake.ofNames (h.look st) e.settings after) st
  refine ⟨?_, ?_⟩
  · rw [hwith.exit, hwithout.exit]
    exact c.exit_of_unread hbefore hafter n (.notEncoded f) st
  · rw [hwith.err, herr]
    exact List.mem_append_right _ List.mem_cons_self

/-- Notes between a document and a file that does not exist. -/
theorem Task.ignores_notes :
    Ending.Ignores
      ((Task.fix false).run (Files.host ⟨⟨2024, 1, 1⟩, 0, 0, 0, 0, none⟩) (Engine.stock {}) {})
      ⟨[([lit "a.html"], .file (Utf8.encode (lit "<im src=\"a_files/1.png\">"))),
        ([lit "notes.txt"], .file (Utf8.encode (lit "<im src=\"a_files/2.png\">")))], [], []⟩
      [lit "a.html"] (lit "notes.txt") [lit "gone.html"] := by
  have hread : (Files.host ⟨⟨2024, 1, 1⟩, 0, 0, 0, 0, none⟩).look
      ⟨[([lit "a.html"], .file (Utf8.encode (lit "<im src=\"a_files/1.png\">"))),
        ([lit "notes.txt"], .file (Utf8.encode (lit "<im src=\"a_files/2.png\">")))], [], []⟩
      (lit "notes.txt") = .ok (Utf8.encode (lit "<im src=\"a_files/2.png\">")) := rfl
  exact (ignores_iff_exists_decode (Files.quiet_host ⟨⟨2024, 1, 1⟩, 0, 0, 0, 0, none⟩) (Engine.stock {})
    hread (by decide) (.fix false) [lit "a.html"] [lit "gone.html"] {}).1.mpr
    (.inl ⟨lit "<im src=\"a_files/2.png\">", rfl⟩)

/-- Not every file that is no HTML document goes unnoticed. -/
theorem Task.not_ignores_of_read :
    ¬ ∀ (e : Engine) (fs : Files) (moment : Moment) (n : Text) (bytes : List UInt8),
      fs.read n = .ok bytes → (∀ x ∈ e.settings.extensions, ¬ Text.lower x <:+ Text.lower n) →
      ∀ (task : Task) (before after : List Text) (j : Journal),
        Ending.Ignores (task.run (Files.host moment) e j) fs before n after := by
  intro h
  have halike := h (Engine.stock {}) ⟨[([lit "logo.png"], .file [0x89])], [], []⟩
    ⟨⟨2024, 1, 1⟩, 0, 0, 0, 0, none⟩ (lit "logo.png") [0x89] rfl (by decide) (.check .text) [] [] {}
  exact nomatch halike.exit

end Worksheet
