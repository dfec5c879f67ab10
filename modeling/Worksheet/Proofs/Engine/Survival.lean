import Worksheet.Proofs.Engine.Trace
import Worksheet.Proofs.Image.Annotations

/-!
# Annotations in corrected documents

What becomes of the annotations of a document when the corrections of a check are
applied to it. Each correction keeps the annotations and their numbers, or it is
that of a mistyped tag and removes those that it touches (`Diagnostic.Treats`):

* `Marks.treats_of_mem_findings`, `Typo.treats_of_mem_findings`,
  `Folder.treats_of_mem_findings`: the findings of the single checks;
* `Engine.points_applyAll`: the numbers in the corrected document are those of the
  annotations that no applied correction of a mistyped tag touches.
-/

namespace Worksheet

open GradingLine

/-- The groups of annotations that have the same number, which the second one does
not write longer. -/
def GradingLine.SameNumber (gs gs' : List Text) : Prop :=
  digitsValue (gs'.getD 0 []) = digitsValue (gs.getD 0 []) ∧
    (gs'.getD 0 []).length ≤ (gs.getD 0 []).length

/-- What the correction of a finding does to the annotations of a text. -/
def Diagnostic.Treats (t : Text) (x : Diagnostic) : Prop :=
  ∀ c, x.fix = some c →
    if x.code = .imageTagTypo then c.Swallows GradingLine.pattern t
    else c.Keeps GradingLine.pattern SameNumber t

theorem Diagnostic.treats_of_fix_none {t : Text} {x : Diagnostic} (h : x.fix = none) : x.Treats t :=
  fun c hc => by rw [h] at hc; exact nomatch hc

/-- What a correction does does not depend on lines and columns. -/
theorem Diagnostic.Treats.locate {t : Text} {x : Diagnostic} (h : x.Treats t) (d : Document) :
    (x.locate d).Treats t := by
  intro c hc
  obtain ⟨c', hc', rfl⟩ := Option.map_eq_some_iff.mp hc
  have := h c' hc'
  show if x.code = .imageTagTypo then _ else _
  split at this
  · rename_i htypo
    rw [if_pos htypo]
    exact ⟨this.split, this.new_sealed, this.new_barren⟩
  · rename_i htypo
    rw [if_neg htypo]
    cases this with
    | exchange split stop old new related => exact .exchange split stop old new related
    | vary split stop replacement hs hs' hr hr' => exact .vary split stop replacement hs hs' hr hr'

/-! ## The single checks -/

theorem Marks.treats_of_mem_findings {t : Text} {s : Settings} {ds : List Diagnostic}
    (h : findings t s = .ok ds) {x : Diagnostic} (hx : x ∈ ds) : x.Treats t := by
  obtain ⟨m, hm, rfl⟩ := exists_of_mem_findings h hx
  obtain ⟨⟨v, hv⟩, hreads⟩ := Pattern.mem_scan hm
  obtain ⟨digits, unit, hgs, hne⟩ := exists_digits hreads
  have hdigits : m.group 0 = digits := by rw [Match.group, hgs, List.getD_cons_zero]
  intro c hc
  obtain rfl := Option.some.inj hc
  have hcode : (finding s (ofReading m)).code ≠ .imageTagTypo := by simp [finding]
  rw [if_neg hcode]
  refine .exchange hv.symm rfl hreads (reads_canonical _) ⟨digitsValue_decimal _, ?_⟩
  show (decimal (digitsValue (m.group 0))).length ≤ (m.group 0).length
  rw [hdigits]
  exact length_decimal_digitsValue hne

theorem Typo.treats_of_mem_findings {t : Text} {images : List Image} {s : Settings} {x : Diagnostic}
    (hx : x ∈ findings t images s) : x.Treats t := by
  obtain ⟨m, hm, -, n, -, ⟨r, hr, rfl⟩ | rfl⟩ := exists_of_mem_findings hx
  · intro c hc
    have hcode : r.1.code = .imageTagTypo := by
      obtain ⟨u, -, -, -, hfinding, -⟩ := exists_of_typoReport hr
      exact congrArg (·.code) hfinding
    rw [if_pos hcode]
    exact swallows_of_typoReport hr (not_mem_path (Pattern.mem_scan hm).2) hc
  · exact Diagnostic.treats_of_fix_none rfl

theorem Folder.treats_of_mem_findings {t folder : Text} (hfolder : IsFolder folder) {s : Settings}
    (hfaithful : ∀ i ∈ Image.all t, i.misspelt = false → misplaced folder i = true → Faithful i)
    {ds : List Diagnostic} (h : findings (Image.all t) folder s = .ok ds) {x : Diagnostic} (hx : x ∈ ds) :
    x.Treats t := by
  obtain ⟨i, hi, hmisplaced, hstart, hstop, hcode, hfix⟩ := exists_of_mem_findings h hx
  split at hfix
  · exact Diagnostic.treats_of_fix_none hfix
  · rename_i hspelt
    rw [Bool.not_eq_true] at hspelt
    intro c hc
    obtain ⟨k, hk, hpre, htag⟩ := Image.isTag_of_mem_all hi hspelt
    obtain rfl : x.start = k := by omega
    have hx : x.stop = x.start + i.fullText.length := by
      rw [Image.stop] at hstop
      omega
    rw [hfix] at hc
    obtain rfl := Option.some.inj hc
    rw [hcode, if_neg (by decide), hx]
    exact keeps_correctedTag _ hfolder htag (hfaithful i hi hspelt hmisplaced) hpre none

theorem Engine.treats_of_mem_result {d : Document} {r : Rule} (hr : r ∈ stockRules)
    (hfaithful : ∀ i ∈ Image.all d.text, i.misspelt = false →
      Folder.misplaced (Image.folderFor d.name (lit "_files")) i = true → Folder.Faithful i)
    {ds : List Diagnostic} (h : (r.run d {}).result = .ok ds) {x : Diagnostic} (hx : x ∈ ds) :
    x.Treats d.text := by
  rcases List.mem_pair.mp hr with rfl | rfl
  · exact Marks.treats_of_mem_findings ((Marks.result_run_rule d {}).symm.trans h) hx
  · rcases Images.mem_findings h hx with hx | ⟨ds', hds, hx⟩ | ⟨ds', hds, hx⟩
    · exact Typo.treats_of_mem_findings hx
    · exact Folder.treats_of_mem_findings (Folder.isFolder_folderFor _) hfaithful hds hx
    · obtain ⟨i, -, p, -, -, -, hfix⟩ := Numbering.exists_of_mem_findings hds hx
      exact Diagnostic.treats_of_fix_none hfix

/-! ## A whole check -/

/-- Whether a correction is that of a mistyped tag. -/
def Correction.ofTypo (ds : List Diagnostic) (c : Correction) : Bool :=
  ds.any fun x => x.code == .imageTagTypo && x.fix == some c

/-- Whether an annotation is touched by a correction of a mistyped tag that is
applied. -/
def GradingLine.swallowed (ds : List Diagnostic) (a : GradingLine) : Bool :=
  (Correction.select ds).any fun c => c.ofTypo ds && (c.start < a.stop && a.start < c.stop)

theorem GradingLine.spared_eq {ds : List Diagnostic} {cs : List Correction}
    (h : cs.Perm (Correction.select ds)) (m : Match) :
    Correction.spared (Correction.ofTypo ds) cs m = !swallowed ds (ofReading m) :=
  congrArg (!·) h.any_eq

theorem Correction.swallows_or_keeps {t : Text} {ds : List Diagnostic} (h : ∀ x ∈ ds, x.Treats t)
    {c : Correction} (hc : c ∈ select ds) :
    if c.ofTypo ds then c.Swallows GradingLine.pattern t
    else c.Keeps GradingLine.pattern SameNumber t := by
  split
  · rename_i htypo
    obtain ⟨x, hx, hboth⟩ := List.any_eq_true.mp htypo
    rw [Bool.and_eq_true, beq_iff_eq, beq_iff_eq] at hboth
    have := h x hx c hboth.2
    rwa [if_pos hboth.1] at this
  · rename_i hother
    obtain ⟨x, hx, hfix⟩ := exists_of_mem_select hc
    have hcode : x.code ≠ .imageTagTypo := fun hcode => hother (List.any_eq_true.mpr ⟨x, hx, by
      rw [hcode, hfix, beq_self_eq_true, beq_self_eq_true, Bool.and_self]⟩)
    have := h x hx c hfix
    rwa [if_neg hcode] at this

/-- What holds of the elements of a list holds of those that they are related to, if
the relation carries it over. -/
theorem forall_of_forall₂ {α β : Type} {R : α → β → Prop} {P : α → Prop} {Q : β → Prop} {xs : List α}
    {ys : List β} (h : List.Forall₂ R xs ys) (hP : ∀ x ∈ xs, P x) (hQ : ∀ x y, R x y → P x → Q y) :
    ∀ y ∈ ys, Q y := by
  induction h with
  | nil => exact nofun
  | cons hxy _ ih =>
    obtain ⟨hx, hxs⟩ := List.forall_mem_cons.mp hP
    exact List.forall_mem_cons.mpr ⟨hQ _ _ hxy hx, ih hxs⟩

/-- The annotations of a corrected text, if each correction keeps the annotations or
is that of a mistyped tag. -/
theorem GradingLine.points_applyAll_of_treats {t : Text} {ds : List Diagnostic}
    (hspan : ∀ x ∈ ds, ∀ c, x.fix = some c → c.start < c.stop ∧ c.stop ≤ t.length)
    (htreats : ∀ x ∈ ds, x.Treats t) {as : List GradingLine} (has : all t = .ok as) :
    ∃ as₂, all (Correction.applyAll t ds).1 = .ok as₂ ∧
      as₂.map (·.points) = (as.filter fun a => !swallowed ds a).map (·.points) := by
  obtain ⟨cs, hperm, hbefore, hbetween, happly⟩ := Correction.exists_applyAll_eq_splice
    fun x hx c hc => (hspan x hx c hc).imp_left Nat.le_of_lt
  obtain ⟨hlen, rfl⟩ := all_eq_ok_iff.mp has
  have hrel := Correction.forall₂_scanFrom_splice (R := SameNumber) (T := Correction.ofTypo ds)
    (t := t) apart (fun _ => ⟨rfl, Nat.le_refl _⟩) hbefore hbetween
    (fun c hc => Correction.swallows_or_keeps htreats (hperm.mem_iff.mp hc)) 0
  rw [List.drop_zero, show Correction.spared (Correction.ofTypo ds) cs = _ from
    funext fun m => spared_eq hperm m] at hrel
  rw [happly]
  refine ⟨_, all_eq_ok_iff.mpr ⟨?_, rfl⟩, ?_⟩
  · refine forall_of_forall₂ hrel (fun m hm => hlen m (List.mem_of_mem_filter hm)) fun m m' h hm => ?_
    exact Nat.le_trans h.2 hm
  · rw [List.filter_map, List.map_map, List.map_map]
    exact (List.forall₂_eq_eq_eq ▸ List.rel_map (fun _ _ h => h.1.symm) hrel : _ = _).symm

/-- The numbers in a corrected document are those of the annotations that no applied
correction of a mistyped tag touches, so they are those of the document if and only
if there is no such correction. The corrections of folders are those of sources that
end with the name of the file and do not also start their tags. -/
theorem Engine.points_applyAll (d : Document) (moment : Moment) (duration : Binary64) (j : Journal)
    {as : List GradingLine} (has : all d.text = .ok as)
    (hfaithful : ∀ i ∈ Image.all d.text, i.misspelt = false →
      Folder.misplaced (Image.folderFor d.name (lit "_files")) i = true → Folder.Faithful i) :
    ∃ as₂, all (Correction.applyAll d.text
        ((stock {}).validate d moment duration j).1.diagnostics).1 = .ok as₂ ∧
      as₂.map (·.points) = (as.filter fun a =>
        !swallowed ((stock {}).validate d moment duration j).1.diagnostics a).map (·.points) ∧
      (as₂.map (·.points) = as.map (·.points) ↔ ∀ a ∈ as,
        swallowed ((stock {}).validate d moment duration j).1.diagnostics a = false) := by
  have hspan : ∀ x ∈ ((stock {}).validate d moment duration j).1.diagnostics, ∀ c, x.fix = some c →
      c.start < c.stop ∧ c.stop ≤ d.text.length := by
    intro x hx c hc
    obtain ⟨r, hr, ds, h, y, hy, rfl⟩ := exists_of_mem_diagnostics hx
    have hwithin := (traced_of_mem_result hr h hy).1.locate d
    obtain ⟨hstart, hstop, hend⟩ := hwithin.fix c hc
    have := hwithin.nonempty
    omega
  have htreats : ∀ x ∈ ((stock {}).validate d moment duration j).1.diagnostics, x.Treats d.text := by
    intro x hx
    obtain ⟨r, hr, ds, h, y, hy, rfl⟩ := exists_of_mem_diagnostics hx
    exact (treats_of_mem_result hr hfaithful h hy).locate d
  obtain ⟨as₂, has₂, hpoints⟩ := points_applyAll_of_treats hspan htreats has
  refine ⟨as₂, has₂, hpoints, ?_⟩
  rw [hpoints]
  constructor
  · -- If an annotation were missing, there would be fewer numbers.
    intro h a ha
    have hlen := congrArg List.length h
    rw [List.length_map, List.length_map, List.length_filter_eq_length_iff] at hlen
    exact Bool.not_eq_true' _ ▸ hlen a ha
  · intro h
    rw [List.filter_eq_self.mpr fun a ha => by rw [h a ha]; rfl]

/-- A document with a mistyped tag whose quotes are not closed, between two annotations,
and an image in another folder. -/
def Document.unclosed : Document where
  text := canonical 3 ++ lit "\n<im src=\"a_files/2.png>" ++ canonical 2 ++ lit "<img src=\"b/1.png\">"
  name := lit "a.html"

/-- The findings in this document. -/
def Document.unclosedFindings : List Diagnostic :=
  [Typo.typoFinding unclosed.text {} (lit "a_files/2.png") 59 92,
    { severity := .warning
      code := .imageFolder
      message := lit "Image source should be in \"a_files\" folder"
      rule := Images.ruleName
      start := 140
      stop := 159
      fix := some ⟨140, 159, lit "<img src=\"a_files/1.png\">", none⟩ }].map (·.locate unclosed)

theorem Document.diagnostics_unclosed :
    ((Engine.stock {}).validate unclosed ⟨⟨2024, 1, 1⟩, 0, 0, 0, 0, none⟩ .zero {}).1.diagnostics =
      unclosedFindings := by
  decide +kernel

theorem GradingLine.all_unclosed :
    all Document.unclosed.text =
      .ok [⟨canonical 3, 3, lit "marks", 0⟩, ⟨canonical 2, 2, lit "marks", 82⟩] := by
  decide +kernel

/-- The correction of the mistyped tag reaches into the annotation behind it, which is
lost. -/
theorem Engine.points_applyAll_unclosed :
    ∃ as₂, all (Correction.applyAll Document.unclosed.text ((stock {}).validate Document.unclosed
        ⟨⟨2024, 1, 1⟩, 0, 0, 0, 0, none⟩ .zero {}).1.diagnostics).1 = .ok as₂ ∧
      as₂.map (·.points) = [3] := by
  obtain ⟨as₂, has₂, hpoints, -⟩ := points_applyAll Document.unclosed
    ⟨⟨2024, 1, 1⟩, 0, 0, 0, 0, none⟩ .zero {} all_unclosed (by decide +kernel)
  refine ⟨as₂, has₂, hpoints.trans ?_⟩
  rw [Document.diagnostics_unclosed]
  decide +kernel

/-- Corrections do not always keep the numbers. -/
theorem Engine.not_points_applyAll_eq :
    ¬ ∀ (d : Document) (moment : Moment) (duration : Binary64) (j : Journal) (as as₂ : List GradingLine),
      all d.text = .ok as →
      all (Correction.applyAll d.text ((stock {}).validate d moment duration j).1.diagnostics).1 =
        .ok as₂ →
      as₂.map (·.points) = as.map (·.points) := by
  intro h
  have hbefore : (Document.unclosedFindings.filterMap (·.fix)).Pairwise fun a b =>
      a.start < b.start ∧ a.stop ≤ b.start := by
    decide +kernel
  have hbetween : ∀ c ∈ Document.unclosedFindings.filterMap (·.fix),
      c.start ≤ c.stop ∧ c.stop ≤ Document.unclosed.text.length := by
    decide +kernel
  have happly := Correction.applyAll_eq_splice rfl hbefore fun c hc =>
    ⟨Nat.zero_le _, (hbetween c hc).1, (hbetween c hc).2⟩
  have := h Document.unclosed ⟨⟨2024, 1, 1⟩, 0, 0, 0, 0, none⟩ .zero {}
    [⟨canonical 3, 3, lit "marks", 0⟩, ⟨canonical 2, 2, lit "marks", 82⟩]
    [⟨canonical 3, 3, lit "marks", 0⟩] all_unclosed
    (by rw [Document.diagnostics_unclosed, happly]; decide +kernel)
  exact absurd this (by decide)

end Worksheet
