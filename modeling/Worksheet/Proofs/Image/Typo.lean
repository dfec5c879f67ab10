import Worksheet.Image.Typo
import Worksheet.Proofs.Pattern.Reading
import Worksheet.Proofs.Text.Search

/-!
# Image paths and what is reported about them

* `Typo.step_eq_append`: what one more path adds to the reports, and so what each of
  them is about (`Typo.mem_foldl_step`);
* `Typo.findings_eq_nil_iff`: something is reported as soon as one path of a text
  belongs to no image. The first such path is told of by a mistyped tag or as a
  bare path, as there is nothing before it that could cover it;
* `Typo.filter_isTypo_reports`: the mistyped tags that are reported are those
  found for the single paths, one path after another;
* `Typo.mem_findings_isTypo`: where they are.
-/

namespace Worksheet.Typo

/-! ## The paths of a text -/

theorem mem_foldl_distinct {p : Text} {ts seen : List Text} :
    p ∈ ts.foldl (fun seen t => if t ∈ seen then seen else seen ++ [t]) seen ↔ p ∈ seen ∨ p ∈ ts := by
  induction ts generalizing seen with
  | nil => simp
  | cons t ts ih =>
    rw [List.foldl_cons, ih, List.mem_cons]
    split
    · rename_i ht
      constructor
      · rintro (h | h)
        · exact .inl h
        · exact .inr (.inr h)
      · rintro (h | rfl | h)
        · exact .inl h
        · exact .inl ht
        · exact .inr h
    · rw [List.mem_append, List.mem_singleton, or_assoc]

theorem nodup_foldl_distinct {ts seen : List Text} (h : seen.Nodup) :
    (ts.foldl (fun seen t => if t ∈ seen then seen else seen ++ [t]) seen).Nodup := by
  induction ts generalizing seen with
  | nil => exact h
  | cons t ts ih =>
    rw [List.foldl_cons]
    split
    · exact ih h
    · rename_i ht
      refine ih (List.nodup_append.mpr ⟨h, List.pairwise_singleton _ t, fun a ha b hb => ?_⟩)
      rintro rfl
      exact ht (List.mem_singleton.mp hb ▸ ha)

theorem mem_paths {t p : Text} : p ∈ paths t ↔ ∃ m ∈ pathPattern.scan t, m.text = p := by
  rw [paths, distinct, mem_foldl_distinct, List.mem_map]
  simp

theorem accounted_iff {images : List Image} {p : Text} :
    accounted images p = true ↔ ∃ i ∈ images, p <:+: i.src := by
  rw [accounted, List.any_eq_true]
  exact exists_congr fun i => and_congr_right fun _ => Text.includes_iff

/-! ## One path after another -/

variable {t : Text} {s : Settings}

/-- The report on a mistyped tag for a path, at the first place of the path. -/
def typoOf (t : Text) (s : Settings) (p : Text) : Option Report :=
  typoReport t s p ((Text.offsetOf? p t).getD 0)

/-- The report on a bare path, at its first place, if none so far covers it. -/
def strayOf (t : Text) (s : Settings) (sofar : List Report) (p : Text) : List Report :=
  let offset := (Text.offsetOf? p t).getD 0
  if sofar.any (·.1.covers offset) then [] else [(strayFinding t s p offset, strayCall p offset)]

/-- One more path adds a report on a mistyped tag, if there is one, and then one on the bare
path, if it is not covered yet. -/
theorem step_eq_append (sofar : List Report) (p : Text) :
    step t s sofar p = sofar ++ (typoOf t s p).toList ++
      strayOf t s (sofar ++ (typoOf t s p).toList) p := by
  have hstep : step t s sofar p =
      if (sofar ++ (typoOf t s p).toList).any (·.1.covers ((Text.offsetOf? p t).getD 0)) then
        sofar ++ (typoOf t s p).toList
      else sofar ++ (typoOf t s p).toList ++ [(strayFinding t s p ((Text.offsetOf? p t).getD 0),
        strayCall p ((Text.offsetOf? p t).getD 0))] := rfl
  rw [hstep, strayOf]
  split
  · rw [List.append_nil]
  · rfl

theorem eq_of_mem_strayOf {sofar : List Report} {p : Text} {r : Report} (h : r ∈ strayOf t s sofar p) :
    r = (strayFinding t s p ((Text.offsetOf? p t).getD 0),
      strayCall p ((Text.offsetOf? p t).getD 0)) := by
  rw [strayOf] at h
  split at h
  · exact absurd h List.not_mem_nil
  · exact List.mem_singleton.mp h

/-- Every report is about a mistyped tag or a bare path, at the first place of a path. -/
theorem mem_foldl_step {sofar : List Report} {ps : List Text} {r : Report}
    (h : r ∈ ps.foldl (step t s) sofar) :
    r ∈ sofar ∨ ∃ p ∈ ps, typoOf t s p = some r ∨
      r = (strayFinding t s p ((Text.offsetOf? p t).getD 0),
        strayCall p ((Text.offsetOf? p t).getD 0)) := by
  induction ps generalizing sofar with
  | nil => exact .inl h
  | cons p ps ih =>
    rcases ih h with h | ⟨q, hq, h⟩
    · rw [step_eq_append, List.append_assoc, List.mem_append, List.mem_append, Option.mem_toList] at h
      exact h.imp_right fun h => ⟨p, List.mem_cons_self, h.imp_right eq_of_mem_strayOf⟩
    · exact .inr ⟨q, List.mem_cons_of_mem _ hq, h⟩

theorem step_ne_nil (sofar : List Report) (p : Text) : step t s sofar p ≠ [] := by
  rw [step_eq_append]
  intro h
  obtain ⟨hsofar, hstray⟩ := List.append_eq_nil_iff.mp h
  rw [hsofar] at hstray
  exact List.cons_ne_nil _ _ hstray

theorem foldl_step_eq_nil_iff {sofar : List Report} {ps : List Text} :
    ps.foldl (step t s) sofar = [] ↔ sofar = [] ∧ ps = [] := by
  induction ps generalizing sofar with
  | nil => simp
  | cons p ps ih =>
    rw [List.foldl_cons, ih]
    exact ⟨fun h => absurd h.1 (step_ne_nil sofar p), fun h => absurd h.2 (List.cons_ne_nil _ _)⟩

/-- Nothing is reported if and only if every path of the text belongs to an
image. -/
theorem findings_eq_nil_iff {images : List Image} :
    findings t images s = [] ↔
      ∀ m ∈ pathPattern.scan t, ∃ i ∈ images, m.text <:+: i.src := by
  rw [findings, List.map_eq_nil_iff, reports, foldl_step_eq_nil_iff, List.filter_eq_nil_iff]
  simp only [true_and, Bool.not_eq_true', Bool.not_eq_false, accounted_iff, mem_paths]
  constructor
  · intro h m hm
    exact h m.text ⟨m, hm, rfl⟩
  · rintro h p ⟨m, hm, rfl⟩
    exact h m hm

/-! ## Mistyped tags -/

/-- Whether a report is about a mistyped tag. -/
def isTypo (r : Report) : Bool := r.1.code = .imageTagTypo

theorem filter_isTypo_typoOf (p : Text) :
    (typoOf t s p).toList.filter isTypo = (typoOf t s p).toList := by
  rw [typoOf, typoReport]
  cases inWindow? (t.window ((Text.offsetOf? p t).getD 0) ((Text.offsetOf? p t).getD 0 + p.length)
    s.images.typoWindow).2 <;> rfl

/-- What is reported so far does not decide about a mistyped tag, only about a bare
path. -/
theorem filter_isTypo_step (sofar : List Report) (p : Text) :
    (step t s sofar p).filter isTypo = sofar.filter isTypo ++ (typoOf t s p).toList := by
  have hstray (sofar : List Report) : (strayOf t s sofar p).filter isTypo = [] := by
    refine List.filter_eq_nil_iff.mpr fun r hr => ?_
    rw [eq_of_mem_strayOf hr]
    exact Bool.false_ne_true
  rw [step_eq_append, List.filter_append, hstray, List.append_nil, List.filter_append,
    filter_isTypo_typoOf]

theorem filter_isTypo_foldl (sofar : List Report) (ps : List Text) :
    (ps.foldl (step t s) sofar).filter isTypo = sofar.filter isTypo ++ ps.filterMap (typoOf t s) := by
  induction ps generalizing sofar with
  | nil => rw [List.foldl_nil, List.filterMap_nil, List.append_nil]
  | cons p ps ih =>
    rw [List.foldl_cons, ih, filter_isTypo_step, List.append_assoc, List.filterMap_cons]
    cases typoOf t s p <;> rfl

theorem filter_isTypo_reports (images : List Image) :
    (reports t images s).filter isTypo =
      ((paths t).filter fun p => !accounted images p).filterMap (typoOf t s) :=
  filter_isTypo_foldl [] _

/-- A path of a text has a first place in it. -/
theorem exists_offset_of_mem_paths {p : Text} (h : p ∈ paths t) : ∃ n, Text.offsetOf? p t = some n := by
  obtain ⟨m, hm, rfl⟩ := mem_paths.mp h
  rw [← Option.isSome_iff_exists]
  exact Text.includes_iff.mpr (Pattern.infix_of_prefix_drop (Pattern.mem_scan hm).1)

/-- The findings about mistyped tags: one for each path that belongs to no image
and has a mistyped tag in the window around its first place. -/
theorem mem_findings_isTypo {images : List Image} {d : Diagnostic} :
    d ∈ findings t images s ∧ d.code = .imageTagTypo ↔
      ∃ m ∈ pathPattern.scan t, (∀ i ∈ images, ¬ m.text <:+: i.src) ∧
        ∃ n r, Text.offsetOf? m.text t = some n ∧ typoReport t s m.text n = some r ∧ r.1 = d := by
  have hfilter : d ∈ findings t images s ∧ d.code = .imageTagTypo ↔
      ∃ r ∈ (reports t images s).filter isTypo, r.1 = d := by
    simp only [findings, List.mem_map, List.mem_filter, isTypo, decide_eq_true_eq]
    constructor
    · rintro ⟨⟨r, hr, rfl⟩, hd⟩
      exact ⟨r, ⟨hr, hd⟩, rfl⟩
    · rintro ⟨r, ⟨hr, hd⟩, rfl⟩
      exact ⟨⟨r, hr, rfl⟩, hd⟩
  rw [hfilter, filter_isTypo_reports]
  simp only [List.mem_filterMap, List.mem_filter, Bool.not_eq_true', ← Bool.not_eq_true, accounted_iff]
  constructor
  · rintro ⟨r, ⟨p, ⟨hp, himages⟩, hr⟩, rfl⟩
    obtain ⟨n, hn⟩ := exists_offset_of_mem_paths hp
    obtain ⟨m, hm, rfl⟩ := mem_paths.mp hp
    rw [typoOf, hn] at hr
    exact ⟨m, hm, fun i hi h => himages ⟨i, hi, h⟩, n, r, hn, hr, rfl⟩
  · rintro ⟨m, hm, himages, n, r, hn, hr, rfl⟩
    refine ⟨r, ⟨m.text, ⟨mem_paths.mpr ⟨m, hm, rfl⟩, ?_⟩, ?_⟩, rfl⟩
    · rintro ⟨i, hi, h⟩
      exact himages i hi h
    · rw [typoOf, hn]
      exact hr

end Worksheet.Typo
