import Worksheet.Proofs.Engine.Loop
import Worksheet.Proofs.Image.Numbering
import Worksheet.Proofs.Image.Typo

/-!
# Clean documents

What the result "clean" means for the stock rules: that nothing is wrong with the
annotations of a document, its image paths, the folders of its images and their
numbers (`Engine.status_eq_clean_iff`).
-/

namespace Worksheet

/-! ## Rules without findings -/

theorem Marks.findings_eq_nil_iff {t : Text} {s : Settings} {ds : List Diagnostic}
    (h : Marks.findings t s = .ok ds) :
    ds = [] ↔ ∃ as, GradingLine.all t = .ok as ∧
      ∀ a ∈ as, GradingLine.agrees a.points a.unit = true := by
  obtain ⟨as, has, h⟩ := bind_eq_ok.mp h
  obtain rfl := Except.ok.inj h
  rw [List.map_eq_nil_iff, wrong, List.filter_eq_nil_iff]
  simp only [Bool.not_eq_true', Bool.not_eq_false]
  constructor
  · intro hall
    exact ⟨as, has, hall⟩
  · rintro ⟨bs, hbs, hall⟩
    obtain rfl := Except.ok.inj (has.symm.trans hbs)
    exact hall

theorem Folder.misplaced_eq_false_iff {folder : Text} {i : Image} :
    misplaced folder i = false ↔ (i.src ≠ [] → folder <:+: i.src) := by
  rw [misplaced_eq, Bool.and_eq_false_iff, Bool.not_eq_false', Bool.not_eq_false', List.isEmpty_iff,
    Text.includes_iff]
  exact or_iff_not_imp_left

theorem Folder.findings_eq_nil_iff {images : List Image} {folder : Text} {s : Settings}
    {ds : List Diagnostic} (h : Folder.findings images folder s = .ok ds) :
    ds = [] ↔ ∀ i ∈ images, i.src ≠ [] → folder <:+: i.src := by
  rw [nil_iff_of_mapM_eq_ok h, List.filter_eq_nil_iff]
  simp only [Bool.not_eq_true, misplaced_eq_false_iff]

theorem Images.findings_eq_nil_iff {d : Document} {s : Settings} {images : List Image}
    {ds : List Diagnostic}
    (h : Images.findings d s images (Typo.findings d.text images s) = .ok ds) :
    ds = [] ↔
      (∀ m ∈ Typo.pathPattern.scan d.text, ∃ i ∈ images, m.text <:+: i.src) ∧
      (∀ i ∈ images, i.src ≠ [] → Image.folderFor d.name s.images.folderSuffix <:+: i.src) ∧
      ∃ ns, images.mapM (fun i => Image.number i.src) = .ok ns ∧
        Numbering.Consecutive s.images.firstNumber (Numbering.ordered ns.reduceOption) := by
  rw [findings_eq] at h
  obtain ⟨misplaced, hm, h⟩ := bind_eq_ok.mp h
  obtain ⟨misnumbered, hn, h⟩ := bind_eq_ok.mp h
  obtain rfl := Except.ok.inj h
  obtain ⟨ns, hns, hnil⟩ := Numbering.findings_eq_nil_iff hn
  have hnumbers : misnumbered = [] ↔
      ∃ ns, images.mapM (fun i => Image.number i.src) = .ok ns ∧
        Numbering.Consecutive s.images.firstNumber (Numbering.ordered ns.reduceOption) := by
    rw [hnil]
    constructor
    · intro hc
      exact ⟨ns, hns, hc⟩
    · rintro ⟨ms, hms, hc⟩
      obtain rfl := Except.ok.inj (hns.symm.trans hms)
      exact hc
  rw [List.append_eq_nil_iff, List.append_eq_nil_iff, Typo.findings_eq_nil_iff,
    Folder.findings_eq_nil_iff hm, hnumbers, and_assoc]

namespace Engine

/-! ## The status -/

/-- Where both stock rules are enabled, they are what is run. -/
theorem enabled_stock {s : Settings} (hm : s.enables Marks.ruleName = true)
    (hi : s.enables Images.ruleName = true) : (stock s).enabled = stockRules := by
  have hrules : (stock s).rules = stockRules := rfl
  have hsettings : (stock s).settings = s := rfl
  rw [enabled, hrules, hsettings]
  refine List.filter_eq_self.mpr fun r hr => ?_
  rcases List.mem_pair.mp hr with rfl | rfl
  · exact hm
  · exact hi

/-- What the result "clean" means for a document that is checked by both stock
rules: every annotation has the right unit; every image path is part of the
source of an image; every source that is not empty has the folder of the document
in it; and the numbers of the images are the first number and those that follow
it, without gaps and repetitions. -/
theorem status_eq_clean_iff (s : Settings) (d : Document) (moment : Moment) (duration : Binary64)
    (j : Journal) (hm : s.enables Marks.ruleName = true) (hi : s.enables Images.ruleName = true)
    (hok : ∀ r ∈ stockRules, ∃ ds, (r.run d s).result = .ok ds) :
    ((stock s).validate d moment duration j).1.status = .clean ↔
      (∃ as, GradingLine.all d.text = .ok as ∧
        ∀ a ∈ as, GradingLine.agrees a.points a.unit = true) ∧
      (∀ m ∈ Typo.pathPattern.scan d.text, ∃ i ∈ Image.all d.text, m.text <:+: i.src) ∧
      (∀ i ∈ Image.all d.text, i.src ≠ [] →
        Image.folderFor d.name s.images.folderSuffix <:+: i.src) ∧
      ∃ ns, (Image.all d.text).mapM (fun i => Image.number i.src) = .ok ns ∧
        Numbering.Consecutive s.images.firstNumber (Numbering.ordered ns.reduceOption) := by
  obtain ⟨ds₁, h₁⟩ := hok Marks.rule List.mem_cons_self
  obtain ⟨ds₂, h₂⟩ := hok Images.rule (List.mem_cons_of_mem _ List.mem_cons_self)
  have hout : (stock s).outcomes d =
      [(Marks.ruleName, Marks.rule.run d s), (Images.ruleName, Images.rule.run d s)] := by
    rw [outcomes, enabled_stock hm hi]
    rfl
  have hfailed : failed ((stock s).outcomes d) = [] := by
    rw [hout]
    simp only [failed, List.filterMap_cons, h₁, h₂, List.filterMap_nil]
  have hfound : found d ((stock s).outcomes d) =
      Diagnostic.locateAll d ds₁ ++ (Diagnostic.locateAll d ds₂ ++ []) := by
    rw [hout]
    simp only [found, List.flatMap_cons, h₁, h₂, List.flatMap_nil]
  show statusOf (failed ((stock s).outcomes d)) (found d ((stock s).outcomes d)) = .clean ↔ _
  rw [statusOf_eq_clean_iff, hfailed, hfound, List.append_nil, List.append_eq_nil_iff,
    Diagnostic.locateAll, Diagnostic.locateAll, List.map_eq_nil_iff, List.map_eq_nil_iff,
    Marks.findings_eq_nil_iff ((Marks.result_run_rule d s).symm.trans h₁), Images.findings_eq_nil_iff h₂]
  exact ⟨fun h => h.2, fun h => ⟨rfl, h⟩⟩

theorem status_eq_clean_one :
    ((stock {}).validate ⟨lit "<img src=\"a_files/1.png\">", lit "a.html", none⟩
      ⟨⟨2024, 1, 1⟩, 0, 0, 0, 0, none⟩ .zero {}).1.status = .clean := by
  have hmarks : GradingLine.all (lit "<img src=\"a_files/1.png\">") = .ok [] := rfl
  have himages : Image.all (lit "<img src=\"a_files/1.png\">") =
      [⟨lit "<img src=\"a_files/1.png\">", lit "a_files/1.png", 0, false⟩] := by decide +kernel
  refine (status_eq_clean_iff {} _ _ _ _ rfl rfl fun r hr => ?_).mpr
    ⟨⟨[], hmarks, nofun⟩, ?_, ?_, [some 1], ?_, ?_⟩
  · rcases List.mem_pair.mp hr with rfl | rfl
    · exact ⟨[], rfl⟩
    · have htypos : Typo.reports (lit "<img src=\"a_files/1.png\">")
          [⟨lit "<img src=\"a_files/1.png\">", lit "a_files/1.png", 0, false⟩] {} = [] := by
        decide +kernel
      refine ⟨[], ?_⟩
      simp only [Images.rule, himages, htypos]
      decide +kernel
  · rw [himages]
    decide +kernel
  · rw [himages]
    decide +kernel
  · rw [himages]
    rfl
  · decide +kernel

end Engine

end Worksheet
