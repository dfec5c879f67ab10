import Worksheet.Proofs.Document.Position
import Worksheet.Proofs.Engine.Trace
import Worksheet.Proofs.FileName
import Worksheet.Proofs.Image.Padding

/-!
# The list of findings, line by line

Messages quote paths of the text and the folder of the document, but none of them goes beyond
its line (`Engine.oneLine_message`): a path is made of words and digits, and a folder of the
name of the document and the suffix of the settings. So the list of findings is read again line
by line (`Text.splitLines_join`), and what is written in front of a message leads back to the
place of its finding:

* `Engine.lines_validate`: the lines of the list of findings of a check.
-/

namespace Worksheet

namespace Text

/-! ## Lines -/

/-- The characters that end a line for a reader of any text. There are more of them than line
breaks of a document. -/
def lineEnds : List Char :=
  ['\n', '\x0b', '\x0c', '\r', '\x1c', '\x1d', '\x1e', '\x85', '\u2028', '\u2029']

/-- The lines of a text without their ends; `CR LF` is one end. What stands behind the last end
is a line if it is not empty. -/
def splitLines : Text → List Text
  | [] => []
  | '\r' :: '\n' :: cs => [] :: splitLines cs
  | c :: cs =>
    if c ∈ lineEnds then [] :: splitLines cs
    else match splitLines cs with
      | [] => [[c]]
      | l :: ls => (c :: l) :: ls

/-- No line ends within the text. -/
def OneLine (t : Text) : Prop := ∀ c ∈ t, c ∉ lineEnds

-- Goes through the text, not through all characters there are.
instance (t : Text) : Decidable t.OneLine := List.decidableBAll (· ∉ lineEnds) t

variable {t u : Text} {c : Char}

@[simp] theorem oneLine_append : (t ++ u).OneLine ↔ t.OneLine ∧ u.OneLine := List.forall_mem_append

@[simp] theorem oneLine_cons : OneLine (c :: t) ↔ c ∉ lineEnds ∧ t.OneLine := List.forall_mem_cons

theorem splitLines_cons (hc : c ∉ lineEnds) (t : Text) :
    splitLines (c :: t) = match splitLines t with
      | [] => [[c]]
      | l :: ls => (c :: l) :: ls := by
  rw [splitLines, if_neg hc]
  rintro cs rfl
  exact absurd (by decide) hc

/-- A line that an end follows. -/
theorem splitLines_append (hu : u.OneLine) (t : Text) :
    splitLines (u ++ '\n' :: t) = u :: splitLines t := by
  induction u with
  | nil => rfl
  | cons c u ih =>
    obtain ⟨hc, hu⟩ := oneLine_cons.mp hu
    rw [List.cons_append, splitLines_cons hc, ih hu]

theorem splitLines_of_oneLine (hu : u.OneLine) (hne : u ≠ []) : splitLines u = [u] := by
  induction u with
  | nil => exact absurd rfl hne
  | cons c u ih =>
    obtain ⟨hc, hu⟩ := oneLine_cons.mp hu
    rw [splitLines_cons hc]
    cases u with
    | nil => rfl
    | cons d u => rw [ih hu (List.cons_ne_nil d u)]

/-- Lines that were put together are found again. -/
theorem splitLines_join {ls : List Text} (h : ∀ l ∈ ls, l.OneLine ∧ l ≠ []) :
    splitLines (join ['\n'] ls) = ls := by
  induction ls with
  | nil => rfl
  | cons l ls ih =>
    obtain ⟨⟨hl, hne⟩, hls⟩ := List.forall_mem_cons.mp h
    cases ls with
    | nil => rw [join, List.intercalate_singleton, splitLines_of_oneLine hl hne]
    | cons m ls =>
      rw [join, List.intercalate_cons_cons, List.append_assoc, List.singleton_append,
        splitLines_append hl, ← join, ih hls]

theorem not_isDecimal_of_mem_lineEnds (hc : c ∈ lineEnds) : isDecimal c = false := by
  have hall : lineEnds.all (fun c => isDecimal c == false) = true := by decide +kernel
  exact beq_iff_eq.mp (List.all_eq_true.mp hall c hc)

theorem oneLine_of_isDecimal (h : ∀ c ∈ t, isDecimal c = true) : t.OneLine := fun c hc hmem =>
  Bool.false_ne_true ((not_isDecimal_of_mem_lineEnds hmem).symm.trans (h c hc))

@[simp] theorem oneLine_decimal (n : Nat) : (decimal n).OneLine := oneLine_of_isDecimal (isDecimal_decimal n)

@[simp] theorem oneLine_signedDecimal (i : Int) : (signedDecimal i).OneLine := by
  rw [signedDecimal]
  split
  · exact oneLine_cons.mpr ⟨by decide, oneLine_decimal _⟩
  · exact oneLine_decimal _

theorem oneLine_of_zeroPad {i width : Int} (h : zeroPad i width = .ok t) : t.OneLine := by
  obtain ⟨-, -, rfl⟩ := zeroPad_eq_ok_iff.mp h
  intro c hc
  rcases mem_zeroFill hc with rfl | hc
  · decide
  · exact oneLine_signedDecimal i c hc

end Text

open Text

/-! ## Messages -/

theorem Marks.oneLine_message (s : Settings) (a : GradingLine) : (finding s a).message.OneLine := by
  have hunit : (GradingLine.unitFor a.points).OneLine := by
    rw [GradingLine.unitFor]
    split <;> decide
  have hplural : OneLine (if a.points > 1 then ['s'] else []) := by
    split <;> decide
  simp only [finding, oneLine_append, oneLine_decimal, hunit, hplural, and_true]
  decide

namespace Typo

/-- A path is made of words and digits. -/
theorem oneLine_of_reads_path {u : Text} {gs : List Text} (h : pathPattern.Reads u gs) : u.OneLine := by
  have hother : lineEnds.all (fun c => isWord c == false &&
      (lit "_files/.png").all (fun a => (letterForms a).all (· != c))) = true := by decide +kernel
  intro c hc hmem
  obtain ⟨hword, hspelt⟩ := Bool.and_eq_true_iff.mp (List.all_eq_true.mp hother c hmem)
  exact not_mem_of_reads_path (beq_iff_eq.mp hword) (not_isDecimal_of_mem_lineEnds hmem) hspelt h hc

theorem oneLine_message {t : Text} {images : List Image} {s : Settings} {x : Diagnostic}
    (hx : x ∈ findings t images s) : x.message.OneLine := by
  obtain ⟨m, hm, -, n, -, ⟨r, hr, rfl⟩ | rfl⟩ := exists_of_mem_findings hx
  · obtain ⟨u, -, -, -, hfinding, -⟩ := exists_of_typoReport hr
    have hpath := oneLine_of_reads_path (Pattern.mem_scan hm).2
    have hmessage : r.1.message = lit "Possible typo in image tag. Should be " ++
        (lit "<img src=\"" ++ m.text ++ lit "\">") := congrArg (·.message) hfinding
    simp only [hmessage, oneLine_append, hpath, and_true]
    decide
  · show OneLine (lit "File path found outside a proper <img> tag. Check for HTML syntax errors.")
    decide

end Typo

/-! ### Folders -/

theorem Image.oneLine_folderFor {name suffix : Text} (hname : name.OneLine) (hsuffix : suffix.OneLine) :
    (folderFor name suffix).OneLine :=
  oneLine_append.mpr ⟨fun c hc => hname c (mem_of_mem_afterLast (FileName.mem_of_mem_stem hc)), hsuffix⟩

theorem Folder.oneLine_message {images : List Image} {folder : Text} (hfolder : folder.OneLine)
    {s : Settings} {ds : List Diagnostic} (h : findings images folder s = .ok ds) {x : Diagnostic}
    (hx : x ∈ ds) : x.message.OneLine := by
  obtain ⟨i, -, hfinding⟩ := exists_of_mem_mapM h hx
  obtain ⟨span, -, hfinding⟩ := bind_eq_ok.mp hfinding
  obtain rfl := Except.ok.inj hfinding
  simp only [oneLine_append, hfolder, and_true]
  decide

/-! ### Numbers -/

namespace Numbering

theorem Problem.oneLine_message {s : ImageSettings} {p : Problem} {t : Text}
    (h : p.message s = .ok t) : t.OneLine := by
  cases p with
  | duplicate n count =>
    obtain ⟨a, ha, h⟩ := bind_eq_ok.mp h
    obtain rfl := Except.ok.inj h
    obtain ⟨-, rfl⟩ := writeInteger_eq_ok_iff.mp ha
    simp only [oneLine_append, oneLine_decimal, oneLine_signedDecimal, and_true]
    decide
  | _ =>
    -- Two padded numbers: what is expected, and what was found.
    obtain ⟨a, ha, h⟩ := bind_eq_ok.mp h
    obtain ⟨b, hb, h⟩ := bind_eq_ok.mp h
    obtain rfl := Except.ok.inj h
    simp only [oneLine_append, oneLine_of_zeroPad ha, oneLine_of_zeroPad hb, and_true]
    decide

theorem oneLine_message {images : List Image} {s : Settings} {ds : List Diagnostic}
    (h : findings images s = .ok ds) {x : Diagnostic} (hx : x ∈ ds) : x.message.OneLine := by
  obtain ⟨numbers, -, h⟩ := bind_eq_ok.mp h
  obtain ⟨p, -, hfinding⟩ := exists_of_mem_mapM h hx
  obtain ⟨message, hmessage, hfinding⟩ := bind_eq_ok.mp hfinding
  obtain ⟨span, -, hfinding⟩ := bind_eq_ok.mp hfinding
  obtain rfl := Except.ok.inj hfinding
  exact Problem.oneLine_message hmessage

end Numbering

/-! ## The list -/

/-- What is written in front of a message and behind it stays on its line as well. -/
theorem Diagnostic.oneLine_line {name : Text} (hname : name.OneLine) {x : Diagnostic}
    (hmessage : x.message.OneLine) : (x.line name).OneLine := by
  have hplace : x.place.OneLine := by
    rw [place]
    split
    · simp only [oneLine_append, oneLine_decimal, and_true, true_and]
      decide
    · exact oneLine_cons.mpr ⟨by decide, oneLine_decimal _⟩
  have hseverity : x.severity.name.OneLine := by
    cases x.severity <;> decide
  have hcode : x.code.name.OneLine := by
    cases x.code <;> decide
  have hfix : OneLine (if x.fix.isSome then lit " (fix available)" else []) := by
    split <;> decide
  simp only [line_eq, oneLine_append, hname, hplace, hseverity, hcode, hmessage, hfix, and_true, true_and]
  decide

namespace Engine

/-- No message goes beyond its line if the name of the document and the suffix of its folder
do not. -/
theorem oneLine_message {d : Document} (hname : d.name.OneLine) {s : Settings}
    (hsuffix : s.images.folderSuffix.OneLine) {r : Rule} (hr : r ∈ stockRules) {ds : List Diagnostic}
    (h : (r.run d s).result = .ok ds) {x : Diagnostic} (hx : x ∈ ds) : x.message.OneLine := by
  rcases List.mem_pair.mp hr with rfl | rfl
  · obtain ⟨m, -, rfl⟩ := Marks.exists_of_mem_findings ((Marks.result_run_rule d s).symm.trans h) hx
    exact Marks.oneLine_message s _
  · rcases Images.mem_findings h hx with hx | ⟨ds', hds, hx⟩ | ⟨ds', hds, hx⟩
    · exact Typo.oneLine_message hx
    · exact Folder.oneLine_message (Image.oneLine_folderFor hname hsuffix) hds hx
    · exact Numbering.oneLine_message hds hx

/-- If no line ends within the name of a document and the suffix of its folder, the list of the
findings of a check has one line for each finding, in their order: the name, line and column,
and then the severity, the code and the message. This line and column lead back to where the
finding starts, or to the place in front of it if it starts between the `CR` and the `LF` of a
line break. -/
theorem lines_validate {d : Document} (hname : d.name.OneLine) {s : Settings}
    (hsuffix : s.images.folderSuffix.OneLine) (moment : Moment) (duration : Binary64) (j : Journal)
    {ds : List Diagnostic} (hds : ((stock s).validate d moment duration j).1.diagnostics = ds) :
    (Diagnostic.lines d.name ds).splitLines.length = ds.length ∧
    ∀ (k : Nat) (x : Diagnostic), ds[k]? = some x → ∃ line column : Nat, 1 ≤ line ∧ 1 ≤ column ∧
      (Diagnostic.lines d.name ds).splitLines[k]? =
        some (d.name ++ lit ":" ++ (decimal line ++ lit ":" ++ decimal column) ++ lit ": " ++
          x.severity.name ++ lit " [" ++ x.code.name ++ lit "] " ++ x.message ++
          if x.fix.isSome then lit " (fix available)" else []) ∧
      (d.offsetAt ⟨line - 1, column - 1⟩ : Int) =
        if d.text.inBreak x.start then (x.start : Int) - 1 else x.start := by
  have hfrom : ∀ x ∈ ds, ∃ y : Diagnostic, x = y.locate d ∧ y.message.OneLine ∧ y.start ≤ d.text.length := by
    intro x hx
    obtain ⟨r, hr, ds', h, y, hy, rfl⟩ := exists_of_mem_diagnostics (hds ▸ hx)
    have hwithin := (traced_of_mem_result (s := s) hr h hy).1
    exact ⟨y, rfl, oneLine_message (s := s) hname hsuffix hr h hy,
      Nat.le_of_lt (Nat.lt_of_lt_of_le hwithin.nonempty hwithin.stop)⟩
  have hsplit : (Diagnostic.lines d.name ds).splitLines = ds.map (Diagnostic.line d.name) := by
    refine splitLines_join (List.forall_mem_map.mpr fun x hx => ?_)
    obtain ⟨y, rfl, hmessage, -⟩ := hfrom x hx
    refine ⟨Diagnostic.oneLine_line hname hmessage, ?_⟩
    simp [Diagnostic.line_eq]
  refine ⟨by rw [hsplit, List.length_map], fun k x hx => ?_⟩
  obtain ⟨y, rfl, -, hstart⟩ := hfrom x (List.mem_of_getElem? hx)
  refine ⟨(d.positionAt y.start).line + 1, (d.positionAt y.start).column + 1, Nat.le_add_left _ _,
    Nat.le_add_left _ _, ?_, ?_⟩
  · rw [hsplit, List.getElem?_map, hx, Option.map_some, Diagnostic.line_eq]
    rfl
  · have hplace := d.offsetAt_positionAt y.start
    rw [d.clamp_natCast hstart] at hplace
    exact hplace

/-- A bare path right behind a line break, and an annotation with the wrong unit. -/
def brokenLine : Document where
  text := lit "x\r\n    a_files/1.png<p align=\"right\"><b>(Total for question = 1 marks)</b></p>"
  name := lit "a.html"

theorem lines_validate_brokenLine :
    ∃ ds x, ((stock {}).validate brokenLine ⟨⟨2024, 1, 1⟩, 0, 0, 0, 0, none⟩ .zero {}).1.diagnostics = ds ∧
      ds[1]? = some x ∧ brokenLine.text.inBreak x.start = true ∧
      (Diagnostic.lines (lit "a.html") ds).splitLines.length = ds.length ∧
      ∃ line column : Nat, 1 ≤ line ∧ 1 ≤ column ∧
        (Diagnostic.lines (lit "a.html") ds).splitLines[1]? =
          some (lit "a.html" ++ lit ":" ++ (decimal line ++ lit ":" ++ decimal column) ++ lit ": " ++
            x.severity.name ++ lit " [" ++ x.code.name ++ lit "] " ++ x.message ++
            if x.fix.isSome then lit " (fix available)" else []) ∧
        (brokenLine.offsetAt ⟨line - 1, column - 1⟩ : Int) = x.start - 1 := by
  obtain ⟨hlen, hlines⟩ := lines_validate (d := brokenLine) (s := {}) (by decide) (by decide)
    ⟨⟨2024, 1, 1⟩, 0, 0, 0, 0, none⟩ .zero {} rfl
  have hsecond : (((stock {}).validate brokenLine ⟨⟨2024, 1, 1⟩, 0, 0, 0, 0, none⟩ .zero
      {}).1.diagnostics[1]?).any (fun x => brokenLine.text.inBreak x.start) = true := by decide +kernel
  obtain ⟨x, hx, hbreak⟩ := (Option.any_eq_true _ _).mp hsecond
  obtain ⟨line, column, hline, hcolumn, htext, hplace⟩ := hlines 1 x hx
  rw [if_pos hbreak] at hplace
  exact ⟨_, x, rfl, hx, hbreak, hlen, line, column, hline, hcolumn, htext, hplace⟩

end Engine

end Worksheet
