import Mathlib.Data.List.Duplicate
import Worksheet.Proofs.Engine.Isolation
import Worksheet.Proofs.Image.Padding
import Worksheet.Proofs.Image.Span
import Worksheet.Proofs.Marks.Rewriting

/-!
# When a rule fails

Numbers are read and written only up to a number of digits, and this is the only
reason for which a stock rule fails (`Engine.failedRules_stock`):

* the rule for annotations fails if the number of one is too long to be read;
* the rule for images fails if the number of one is too long to be read, or if the
  highest number that can be read occurs twice: this is a gap, and the number that
  is missing there is too long to be written (`Numbering.exists_gap_iff`).
-/

namespace Worksheet

/-! ## Reading and writing numbers -/

theorem exists_readDigits_iff {ds : Text} :
    (∃ n, readDigits ds = .ok n) ↔ ds.length ≤ digitLimit := by
  rw [readDigits]
  split
  · rename_i h
    exact ⟨fun _ => h, fun _ => ⟨_, rfl⟩⟩
  · rename_i h
    refine ⟨fun hn => ?_, fun h' => absurd h' h⟩
    obtain ⟨n, hn⟩ := hn
    cases hn

/-- A number that is read can be written. -/
theorem lt_writeLimit_of_readDigits {ds : Text} {n : Nat} (h : readDigits ds = .ok n) :
    n < writeLimit := by
  have hlen := exists_readDigits_iff.mp ⟨n, h⟩
  rw [readDigits, if_pos hlen] at h
  obtain rfl := Except.ok.inj h
  unfold writeLimit
  exact digitsValue_lt_of_length_le hlen

theorem exists_writeInteger_iff {i : Int} :
    (∃ t, writeInteger i = .ok t) ↔ i.natAbs < writeLimit := by
  simp only [writeInteger_eq_ok_iff, exists_and_left, exists_eq', and_true]

theorem exists_zeroPad_iff {i width : Int} (hwidth : -wordLimit ≤ width ∧ width < wordLimit) :
    (∃ t, zeroPad i width = .ok t) ↔ i.natAbs < writeLimit := by
  simp only [zeroPad_eq_ok_iff, and_iff_right hwidth, exists_and_left, exists_eq, and_true]

/-! ## Annotations -/

/-- The number of an annotation is too long to be read. -/
def Marks.TooLong (t : Text) : Prop :=
  ∃ m ∈ GradingLine.pattern.scan t, digitLimit < (m.group 0).length

theorem Marks.exists_findings_iff {t : Text} {s : Settings} :
    (∃ ds, findings t s = .ok ds) ↔ ¬ TooLong t := by
  have hall : (∃ as, GradingLine.all t = .ok as) ↔ ¬ TooLong t := by
    simp only [GradingLine.all_eq_ok_iff, exists_and_left, exists_eq, and_true, TooLong, not_exists,
      not_and, Nat.not_lt]
  rw [← hall]
  constructor
  · rintro ⟨ds, h⟩
    obtain ⟨as, has, -⟩ := bind_eq_ok.mp h
    exact ⟨as, has⟩
  · rintro ⟨as, has⟩
    exact ⟨_, findings_eq_ok has s⟩

/-! ## Folders -/

/-- The span of an image is accepted. -/
theorem Image.checkedSpan_eq_ok {t : Text} {i : Image} (hi : i ∈ all t) :
    checkedSpan i.start i.stop = .ok (i.start.toNat, i.stop.toNat) := by
  obtain ⟨k, hk, hstop, -⟩ := bounds_of_mem_all hi
  refine checkedSpan_eq_ok_iff.mpr ⟨?_, rfl⟩
  rw [hk, hstop]
  omega

/-- The findings about folders are always given: they have the spans of images. -/
theorem Folder.exists_findings (t folder : Text) (s : Settings) :
    ∃ ds, findings (Image.all t) folder s = .ok ds := by
  refine exists_mapM_eq_ok_iff.mpr fun i hi => ?_
  exact ⟨_, bind_eq_ok.mpr ⟨_, Image.checkedSpan_eq_ok (List.mem_of_mem_filter hi), rfl⟩⟩

/-! ## Numbers of images -/

theorem Image.exists_number_iff {src : Text} :
    (∃ n?, number src = .ok n?) ↔
      ∀ m, numberPattern.find? src = some m → (m.group 0).length ≤ digitLimit := by
  rw [number]
  cases numberPattern.find? src with
  | none => simp only [Except.ok.injEq, exists_eq', reduceCtorEq, false_implies, implies_true]
  | some m =>
    simp only [Option.some.injEq, forall_eq', ← exists_readDigits_iff]
    cases readDigits (m.group 0) with
    | error f => exact iff_of_false (by rintro ⟨_, ⟨⟩⟩) (by rintro ⟨_, ⟨⟩⟩)
    | ok n => exact ⟨fun _ => ⟨n, rfl⟩, fun _ => ⟨some n, rfl⟩⟩

theorem Image.lt_writeLimit_of_number {src : Text} {n : Nat} (h : number src = .ok (some n)) :
    n < writeLimit := by
  rw [number] at h
  split at h
  · cases h
  · rename_i m _
    cases hn : readDigits (m.group 0) with
    | error f =>
      rw [hn] at h
      cases h
    | ok k =>
      rw [hn] at h
      obtain rfl := Option.some.inj (Except.ok.inj h)
      exact lt_writeLimit_of_readDigits hn

namespace Numbering

theorem count_reduceOption (ns : List (Option Nat)) (n : Nat) :
    ns.reduceOption.count n = ns.count (some n) := by
  induction ns with
  | nil => rfl
  | cons n? ns ih =>
    cases n? with
    | none => rw [List.reduceOption_cons_of_none, ih, List.count_cons_of_ne (Option.some_ne_none n).symm]
    | some m => rw [List.reduceOption_cons_of_some, List.count_cons, List.count_cons, ih, Option.some_beq_some]

theorem gap_mem_problems_iff {first : Int} {numbers : List Nat} {m n : Nat} :
    .gap m n ∈ problems first numbers ↔ .gap m n ∈ gapsIn (ordered numbers) := by
  have hstart : .gap m n ∉ wrongStart first numbers := by
    rw [wrongStart]
    split
    · exact List.not_mem_nil
    · split <;> simp
  simp [problems, duplicates, gaps, hstart]

/-- The number before a gap is one of the numbers. -/
theorem previous_mem {first : Int} {numbers : List Nat} {m n : Nat}
    (h : .gap m n ∈ problems first numbers) : m ∈ numbers := by
  obtain ⟨xs, m', n', ys, hns, -, hmn⟩ := mem_gapsIn.mp (gap_mem_problems_iff.mp h)
  obtain ⟨rfl, rfl⟩ := Problem.gap.inj hmn
  have hm : m ∈ ordered numbers := by
    rw [hns]
    exact List.mem_append_right _ List.mem_cons_self
  exact List.mem_mergeSort.mp hm

/-- In ascending order, a highest number that occurs twice follows itself. -/
theorem exists_append_of_duplicate {numbers : List Nat} {top : Nat} (hsort : numbers.Pairwise (· ≤ ·))
    (htop : ∀ n ∈ numbers, n ≤ top) (h : List.Duplicate top numbers) : ∃ xs ys, numbers = xs ++ top :: top :: ys := by
  induction h with
  | @cons_mem l hmem =>
    cases l with
    | nil => exact absurd hmem List.not_mem_nil
    | cons n ys =>
      have hle := (List.pairwise_cons.mp hsort).1 n List.mem_cons_self
      have hge := htop n (List.mem_cons_of_mem _ List.mem_cons_self)
      obtain rfl : n = top := by omega
      exact ⟨[], ys, rfl⟩
  | @cons_duplicate n l _ ih =>
    obtain ⟨xs, ys, rfl⟩ := ih (List.pairwise_cons.mp hsort).2
      fun m hm => htop m (List.mem_cons_of_mem _ hm)
    exact ⟨n :: xs, ys, rfl⟩

/-- There is a gap behind the highest number if and only if it occurs twice. -/
theorem exists_gap_iff (first : Int) {numbers : List Nat} {top : Nat} (htop : ∀ n ∈ numbers, n ≤ top) :
    (∃ n, .gap top n ∈ problems first numbers) ↔ 2 ≤ numbers.count top := by
  have hsort := pairwise_ordered numbers
  have htop' : ∀ n ∈ ordered numbers, n ≤ top := fun n hn => htop n (List.mem_mergeSort.mp hn)
  have hcount : (ordered numbers).count top = numbers.count top :=
    (List.mergeSort_perm ..).count_eq top
  simp only [gap_mem_problems_iff]
  rw [← hcount, ← List.duplicate_iff_two_le_count]
  constructor
  · rintro ⟨n, hn⟩
    obtain ⟨xs, m, n', ys, hns, -, hmn⟩ := mem_gapsIn.mp hn
    obtain ⟨rfl, rfl⟩ := Problem.gap.inj hmn
    rw [hns] at hsort htop' ⊢
    have hle := (List.pairwise_cons.mp (List.pairwise_append.mp hsort).2.1).1 n List.mem_cons_self
    have hge : n ≤ top := htop' n (by simp)
    obtain rfl : n = top := by omega
    refine List.duplicate_iff_two_le_count.mpr ?_
    rw [List.count_append, List.count_cons_self, List.count_cons_self]
    omega
  · intro h
    obtain ⟨xs, ys, hns⟩ := exists_append_of_duplicate hsort htop' h
    exact ⟨top, mem_gapsIn.mpr ⟨xs, top, top, ys, hns, by omega, rfl⟩⟩

/-- A problem with numbers that were read can be told unless it is a gap behind the
highest of them. -/
theorem Problem.exists_message_iff {s : ImageSettings} (hfirst : s.firstNumber.natAbs < writeLimit)
    (hwidth : -wordLimit ≤ s.numberWidth ∧ s.numberWidth < wordLimit) {p : Problem}
    (hp : p.subject < writeLimit) :
    (∃ message, p.message s = .ok message) ↔ ∀ m n, p = .gap m n → m + 1 < writeLimit := by
  cases p with
  | duplicate n count =>
    obtain ⟨t, ht⟩ := (exists_writeInteger_iff (i := n)).mpr hp
    exact ⟨fun _ => nofun, fun _ => ⟨_, bind_eq_ok.mpr ⟨t, ht, rfl⟩⟩⟩
  | wrongStart n =>
    obtain ⟨a, ha⟩ := (exists_zeroPad_iff hwidth).mpr hfirst
    obtain ⟨b, hb⟩ := (exists_zeroPad_iff (i := n) hwidth).mpr hp
    exact ⟨fun _ => nofun, fun _ => ⟨_, bind_eq_ok.mpr ⟨a, ha, bind_eq_ok.mpr ⟨b, hb, rfl⟩⟩⟩⟩
  | gap m n =>
    obtain ⟨b, hb⟩ := (exists_zeroPad_iff (i := n) hwidth).mpr hp
    have hnext : (∃ t, zeroPad ((m : Int) + 1) s.numberWidth = .ok t) ↔ m + 1 < writeLimit :=
      exists_zeroPad_iff hwidth
    constructor
    · rintro ⟨message, h⟩ _ _ he
      obtain ⟨rfl, -⟩ := gap.inj he
      obtain ⟨a, ha, -⟩ := bind_eq_ok.mp h
      exact hnext.mp ⟨a, ha⟩
    · intro h
      obtain ⟨a, ha⟩ := hnext.mpr (h m n rfl)
      exact ⟨_, bind_eq_ok.mpr ⟨a, ha, bind_eq_ok.mpr ⟨b, hb, rfl⟩⟩⟩

/-- A finding is given unless its message cannot be written: it has the span of an
image. -/
theorem exists_finding_iff {t : Text} {s : Settings} {numbers : List (Nat × Image)}
    (h : numbered (Image.all t) = .ok numbers) {p : Problem}
    (hp : p ∈ problems s.images.firstNumber (numbers.map (·.1))) :
    (∃ x, finding s numbers p = .ok x) ↔ ∃ message, p.message s.images = .ok message := by
  obtain ⟨i, hlast, hi⟩ := exists_lastWith? (subject_mem hp)
  have hspan := Image.checkedSpan_eq_ok (mem_numbered h hi).1
  simp only [finding, hlast, Option.getD_some, hspan, exists_bind_eq_ok_iff]
  exact exists_congr fun message => and_iff_left ⟨_, rfl, _, rfl⟩

/-- The findings about numbers that were read are given unless the highest number that
can be written is the number of two images. -/
theorem exists_mapM_finding_iff {t : Text} {s : Settings}
    (hfirst : s.images.firstNumber.natAbs < writeLimit)
    (hwidth : -wordLimit ≤ s.images.numberWidth ∧ s.images.numberWidth < wordLimit)
    {numbers : List (Nat × Image)} (h : numbered (Image.all t) = .ok numbers) :
    (∃ ds, (problems s.images.firstNumber (numbers.map (·.1))).mapM (finding s numbers) = .ok ds) ↔
      ¬ 2 ≤ (numbers.map (·.1)).count (writeLimit - 1) := by
  have hlt : ∀ n ∈ numbers.map (·.1), n < writeLimit := by
    intro n hn
    obtain ⟨p, hp, rfl⟩ := List.mem_map.mp hn
    exact Image.lt_writeLimit_of_number (mem_numbered h hp).2
  have htop : ∀ n ∈ numbers.map (·.1), n ≤ writeLimit - 1 := fun n hn => Nat.le_sub_one_of_lt (hlt n hn)
  have hfinding : ∀ p ∈ problems s.images.firstNumber (numbers.map (·.1)),
      (∃ x, finding s numbers p = .ok x) ↔ ∀ m n, p = .gap m n → m + 1 < writeLimit := fun p hp =>
    (exists_finding_iff h hp).trans (Problem.exists_message_iff hfirst hwidth (hlt _ (subject_mem hp)))
  rw [exists_mapM_eq_ok_iff, ← exists_gap_iff s.images.firstNumber htop]
  constructor
  · rintro hall ⟨n, hn⟩
    have := (hfinding _ hn).mp (hall _ hn) _ _ rfl
    omega
  · intro hgap p hp
    refine (hfinding p hp).mpr ?_
    rintro m n rfl
    have hm : m ≤ writeLimit - 1 := htop m (previous_mem hp)
    have hne : m ≠ writeLimit - 1 := fun he => hgap ⟨n, he ▸ hp⟩
    omega

end Numbering

namespace Images

/-- The number of an image is too long to be read, or the highest number that can be
read is that of two images. -/
def TooLong (t : Text) : Prop :=
  (∃ i ∈ Image.all t, ∃ m, Image.numberPattern.find? i.src = some m ∧ digitLimit < (m.group 0).length) ∨
    ∃ ns, (Image.all t).mapM (fun i => Image.number i.src) = .ok ns ∧
      2 ≤ ns.count (some (writeLimit - 1))

theorem exists_findings_iff {t : Text} {s : Settings}
    (hfirst : s.images.firstNumber.natAbs < writeLimit)
    (hwidth : -wordLimit ≤ s.images.numberWidth ∧ s.images.numberWidth < wordLimit) :
    (∃ ds, Numbering.findings (Image.all t) s = .ok ds) ↔ ¬ TooLong t := by
  have hread : (∃ numbers, Numbering.numbered (Image.all t) = .ok numbers) ↔
      ¬ ∃ i ∈ Image.all t, ∃ m, Image.numberPattern.find? i.src = some m ∧
        digitLimit < (m.group 0).length := by
    simp only [Numbering.exists_numbered_iff, Image.exists_number_iff, not_exists, not_and, Nat.not_lt]
  rw [TooLong, not_or, ← hread, Numbering.findings, exists_bind_eq_ok_iff]
  rw [← exists_and_right]
  refine exists_congr fun numbers => and_congr_right fun hnumbers => ?_
  obtain ⟨ns, hns, he⟩ := Numbering.numbered_eq_ok hnumbers
  rw [Numbering.exists_mapM_finding_iff hfirst hwidth hnumbers, he, Numbering.count_reduceOption, hns]
  simp only [Except.ok.injEq, exists_eq_left']

theorem exists_result_iff {d : Document} {s : Settings}
    (hfirst : s.images.firstNumber.natAbs < writeLimit)
    (hwidth : -wordLimit ≤ s.images.numberWidth ∧ s.images.numberWidth < wordLimit) :
    (∃ ds, (rule.run d s).result = .ok ds) ↔ ¬ TooLong d.text := by
  obtain ⟨misplaced, hmisplaced⟩ :=
    Folder.exists_findings d.text (Image.folderFor d.name s.images.folderSuffix) s
  rw [← exists_findings_iff hfirst hwidth]
  constructor
  · rintro ⟨ds, h⟩
    obtain ⟨_, _, h⟩ := bind_eq_ok.mp h
    obtain ⟨misnumbered, hmisnumbered, -⟩ := bind_eq_ok.mp h
    exact ⟨misnumbered, hmisnumbered⟩
  · rintro ⟨misnumbered, hmisnumbered⟩
    exact ⟨_, bind_eq_ok.mpr ⟨misplaced, hmisplaced, bind_eq_ok.mpr ⟨misnumbered, hmisnumbered, rfl⟩⟩⟩

end Images

/-! ## The rules -/

namespace Engine

/-- Among rules that are run and have different names, the one that fails is noted. -/
theorem mem_failing_stock_iff {d : Document} {s : Settings} {r : Rule} (hr : r ∈ stockRules)
    (henabled : s.enables r.name = true) :
    r.name ∈ failing d s stockRules ↔ ¬ ∃ ds, (r.run d s).result = .ok ds := by
  have hname : ∀ q ∈ stockRules, q.name = r.name → q = r := by
    intro q hq he
    rcases List.mem_pair.mp hr with rfl | rfl <;> rcases List.mem_pair.mp hq with rfl | rfl
    · rfl
    · exact absurd he (by decide)
    · exact absurd he (by decide)
    · rfl
  have hfails : fails d s r = true ↔ ¬ ∃ ds, (r.run d s).result = .ok ds := by
    rw [fails, henabled]
    cases (r.run d s).result <;> simp
  rw [← hfails, failing, List.mem_map]
  constructor
  · rintro ⟨q, hq, he⟩
    obtain ⟨hq, hf⟩ := List.mem_filter.mp hq
    exact hname q hq he ▸ hf
  · intro hf
    exact ⟨r, List.mem_filter.mpr ⟨hr, hf⟩, rfl⟩

/-- If the number of the first image can be written and the width of numbers fits into
a machine word, a stock rule that is run fails only because of a number that is too
long: one that cannot be read, or the one that is missing behind the highest number
that can. -/
theorem failedRules_stock {s : Settings} (hm : s.enables Marks.ruleName = true)
    (hi : s.enables Images.ruleName = true) (hfirst : s.images.firstNumber.natAbs < writeLimit)
    (hwidth : -wordLimit ≤ s.images.numberWidth ∧ s.images.numberWidth < wordLimit)
    (d : Document) (moment : Moment) (duration : Binary64) (j : Journal) :
    (Marks.ruleName ∈ ((stock s).validate d moment duration j).1.failedRules ↔
      Marks.TooLong d.text) ∧
    (Images.ruleName ∈ ((stock s).validate d moment duration j).1.failedRules ↔
      Images.TooLong d.text) := by
  rw [failedRules_validate]
  constructor
  · refine (mem_failing_stock_iff (r := Marks.rule) List.mem_cons_self hm).trans ?_
    rw [Marks.result_run_rule]
    exact (not_congr Marks.exists_findings_iff).trans not_not
  · refine (mem_failing_stock_iff (r := Images.rule) (List.mem_cons_of_mem _ List.mem_cons_self) hi).trans ?_
    exact (not_congr (Images.exists_result_iff hfirst hwidth)).trans not_not

/-- An annotation whose number has one digit too many. -/
theorem failedRules_stock_long :
    Marks.ruleName ∈ ((stock {}).validate
      ⟨lit "<p align=\"right\"><b>(Total for question=" ++ (List.replicate (digitLimit + 1) '1' ++
        lit "mark)</b></p>"), lit "a.html", none⟩
      ⟨⟨2024, 1, 1⟩, 0, 0, 0, 0, none⟩ .zero {}).1.failedRules := by
  have hreads : GradingLine.pattern.Reads
      (lit "<p align=\"right\"><b>(Total for question=" ++ (List.replicate (digitLimit + 1) '1' ++
        lit "mark)</b></p>")) [List.replicate (digitLimit + 1) '1', lit "mark"] :=
    GradingLine.reads_pattern_iff.mpr ⟨lit "<p", [' '],
      lit "align=\"right\"><b>(Total for question", [], [], List.replicate (digitLimit + 1) '1', [],
      lit "mark", lit ")</b></p>", by decide,
      ⟨List.cons_ne_nil _ _, List.forall_mem_singleton.mpr (by decide)⟩, by decide +kernel, nofun,
      nofun, ⟨nofun, List.forall_mem_replicate.mpr (.inr (by decide))⟩, nofun, .inl (by decide),
      by decide +kernel, rfl, rfl⟩
  have hscan := Pattern.scanFrom_reading GradingLine.apart (n := 0) (t := []) hreads
  rw [List.append_nil] at hscan
  refine (failedRules_stock (s := {}) rfl rfl (by decide +kernel) (by decide +kernel) _ _ _ _).1.mpr ?_
  rw [Marks.TooLong, Pattern.scan, hscan]
  refine ⟨_, List.mem_cons_self, ?_⟩
  show digitLimit < (List.replicate (digitLimit + 1) '1').length
  rw [List.length_replicate]
  omega

/-- The width must fit into a machine word on the negative side as well: otherwise the
rule for images can fail although no number is too long. -/
theorem not_failedRules_stock_of_width_lt :
    ¬ ∀ (s : Settings) (d : Document) (moment : Moment) (duration : Binary64) (j : Journal),
      s.enables Marks.ruleName = true → s.enables Images.ruleName = true →
      s.images.firstNumber.natAbs < writeLimit → s.images.numberWidth < wordLimit →
      (Marks.ruleName ∈ ((stock s).validate d moment duration j).1.failedRules ↔
        Marks.TooLong d.text) ∧
      (Images.ruleName ∈ ((stock s).validate d moment duration j).1.failedRules ↔
        Images.TooLong d.text) := by
  intro h
  have hfailed := (h { images := { numberWidth := -wordLimit - 1 } }
    ⟨lit "<img src=\"a_files/2.png\">", lit "a.html", none⟩ ⟨⟨2024, 1, 1⟩, 0, 0, 0, 0, none⟩ .zero {}
    rfl rfl (by decide +kernel) (by decide +kernel)).2.mp (by decide +kernel)
  have himages : Image.all (lit "<img src=\"a_files/2.png\">") =
      [⟨lit "<img src=\"a_files/2.png\">", lit "a_files/2.png", 0, false⟩] := by decide +kernel
  have hnumber : Image.number (lit "a_files/2.png") = .ok (some 2) := by decide +kernel
  rw [Images.TooLong, himages] at hfailed
  rcases hfailed with ⟨i, hi, m, hm, hlong⟩ | ⟨ns, hns, htwo⟩
  · obtain rfl := List.mem_singleton.mp hi
    exact absurd (Image.exists_number_iff.mp ⟨_, hnumber⟩ m hm) (Nat.not_le.mpr hlong)
  · -- One image cannot have the highest number twice.
    have hcount := htwo.trans List.count_le_length
    rw [← (mapM_eq_ok.mp hns).length_eq] at hcount
    exact absurd hcount (by decide)

end Engine

end Worksheet
