import Worksheet.Proofs.Image.Cleared

/-!
# Where paths without an image are reported

* `Typo.findings_cover_unaccounted`: every path that belongs to no image is covered by a
  finding at the first place where its text occurs, and there are not more findings of a kind
  than such paths. The search for this place does not know where a path was read: the text can
  occur earlier, inside of another path (`Typo.Shadowed`);
* `Typo.exists_covers_start_iff`: so at the place where the path was read, it is covered if and
  only if this is not so, or a finding about another place reaches that far.
-/

namespace Worksheet.Typo

open Pattern

/-! ## Paths without an image -/

/-- A path of a text that is in the source of none of some images. -/
def Unaccounted (t : Text) (images : List Image) (p : Text) : Prop :=
  (∃ m ∈ pathPattern.scan t, m.text = p) ∧ ∀ i ∈ images, ¬ p <:+: i.src

/-- The paths of a text that are in the source of none of some images, each once. -/
def unaccounted (t : Text) (images : List Image) : List Text :=
  (paths t).filter fun p => !accounted images p

theorem mem_unaccounted {t p : Text} {images : List Image} :
    p ∈ unaccounted t images ↔ Unaccounted t images p := by
  rw [unaccounted, List.mem_filter, mem_paths, Bool.not_eq_true', ← Bool.not_eq_true, accounted_iff]
  refine and_congr_right fun _ => ⟨fun h i hi hp => h ⟨i, hi, hp⟩, ?_⟩
  rintro h ⟨i, hi, hp⟩
  exact h i hi hp

theorem nodup_unaccounted (t : Text) (images : List Image) : (unaccounted t images).Nodup :=
  (nodup_foldl_distinct List.nodup_nil).filter _

theorem Unaccounted.ne_nil {t p : Text} {images : List Image} (h : Unaccounted t images p) : p ≠ [] := by
  obtain ⟨⟨m, hm, rfl⟩, -⟩ := h
  exact ne_nil_of_mem_paths hm

/-- A path has a first place, within the text. -/
theorem Unaccounted.exists_offset {t p : Text} {images : List Image} (h : Unaccounted t images p) :
    ∃ n, Text.offsetOf? p t = some n ∧ n ≤ t.length := by
  obtain ⟨n, hn⟩ := exists_offset_of_mem_paths (mem_paths.mpr h.1)
  have hlen := Text.le_length_of_prefix_drop (Text.offsetOf?_eq_some hn).1 h.ne_nil
  exact ⟨n, hn, by omega⟩

/-! ## One path after another -/

variable {t : Text} {s : Settings}

/-- The finding about a bare path covers the path and the padding around it. -/
theorem covers_strayFinding_iff {p : Text} {n k : Nat} :
    (strayFinding t s p n).covers k = true ↔
      n ≤ k + s.images.strayPadding ∧ k ≤ t.length ∧ k ≤ n + p.length + s.images.strayPadding := by
  rw [Diagnostic.covers, Bool.and_eq_true, decide_eq_true_eq, decide_eq_true_eq]
  simp only [strayFinding, Text.padded_eq, Int.toNat_natCast]
  omega

theorem prefix_step (sofar : List Report) (p : Text) : sofar <+: step t s sofar p := by
  rw [step_eq_append, List.append_assoc]
  exact List.prefix_append _ _

theorem prefix_foldl_step (sofar : List Report) (ps : List Text) : sofar <+: ps.foldl (step t s) sofar := by
  induction ps generalizing sofar with
  | nil => exact List.prefix_rfl
  | cons p ps ih => exact (prefix_step sofar p).trans (ih _)

/-- After a path has been looked at, its first place is covered. -/
theorem exists_covers_step (sofar : List Report) {p : Text} {n : Nat}
    (hn : Text.offsetOf? p t = some n) (hle : n ≤ t.length) :
    ∃ r ∈ step t s sofar p, r.1.covers n = true := by
  rw [step_eq_append, strayOf, hn, Option.getD_some]
  split
  · rename_i h
    rw [List.append_nil]
    exact List.any_eq_true.mp h
  · refine ⟨_, List.mem_append_right _ (List.mem_singleton_self _), covers_strayFinding_iff.mpr ?_⟩
    omega

/-- It stays so, whichever paths come before and behind it. -/
theorem exists_covers_foldl (sofar : List Report) {ps : List Text} {p : Text} {n : Nat} (hp : p ∈ ps)
    (hn : Text.offsetOf? p t = some n) (hle : n ≤ t.length) :
    ∃ r ∈ ps.foldl (step t s) sofar, r.1.covers n = true := by
  induction ps generalizing sofar with
  | nil => exact absurd hp List.not_mem_nil
  | cons q ps ih =>
    rcases List.mem_cons.mp hp with rfl | hp
    · obtain ⟨r, hr, hcovers⟩ := exists_covers_step (s := s) sofar hn hle
      exact ⟨r, (prefix_foldl_step _ ps).subset hr, hcovers⟩
    · exact ih _ hp

/-- Every path without an image is covered by a finding at its first place. -/
theorem exists_covers_of_unaccounted {p : Text} {images : List Image} {n : Nat}
    (h : Unaccounted t images p) (hn : Text.offsetOf? p t = some n) :
    ∃ d ∈ findings t images s, d.covers n = true := by
  obtain ⟨n', hn', hle⟩ := h.exists_offset
  obtain rfl := Option.some.inj (hn.symm.trans hn')
  obtain ⟨r, hr, hcovers⟩ := exists_covers_foldl (s := s) [] (mem_unaccounted.mpr h) hn hle
  exact ⟨r.1, List.mem_map_of_mem hr, hcovers⟩

/-! ## How many findings there are -/

/-- Whether a report is about a bare path. -/
def isStray (r : Report) : Bool := r.1.code = .imagePathOutsideTag

theorem length_filter_isStray_step_le (sofar : List Report) (p : Text) :
    ((step t s sofar p).filter isStray).length ≤ (sofar.filter isStray).length + 1 := by
  have htypo : (typoOf t s p).toList.filter isStray = [] := by
    rw [← filter_isTypo_typoOf, List.filter_filter]
    refine List.filter_eq_nil_iff.mpr fun r _ h => ?_
    obtain ⟨hstray, htypo⟩ := Bool.and_eq_true_iff.mp h
    exact nomatch (of_decide_eq_true hstray).symm.trans (of_decide_eq_true htypo)
  have hstray (sofar : List Report) : (strayOf t s sofar p).length ≤ 1 := by
    rw [strayOf]
    split
    · exact Nat.zero_le 1
    · exact Nat.le_refl 1
  rw [step_eq_append, List.filter_append, List.filter_append, htypo, List.append_nil, List.length_append]
  exact Nat.add_le_add_left ((List.length_filter_le _ _).trans (hstray _)) _

theorem length_filter_isStray_foldl_le (sofar : List Report) (ps : List Text) :
    ((ps.foldl (step t s) sofar).filter isStray).length ≤ (sofar.filter isStray).length + ps.length := by
  induction ps generalizing sofar with
  | nil => exact Nat.le_refl _
  | cons p ps ih =>
    have hstep := length_filter_isStray_step_le (t := t) (s := s) sofar p
    have hrest := ih (step t s sofar p)
    rw [List.foldl_cons, List.length_cons]
    omega

/-- The findings of a kind are those of the reports. -/
theorem length_filter_findings (images : List Image) (k : Code) :
    ((findings t images s).filter (·.code = k)).length =
      ((reports t images s).filter fun r => r.1.code = k).length := by
  rw [findings, List.filter_map, List.length_map]
  rfl

/-- The findings about mistyped tags are not more than the paths without an image. -/
theorem length_filter_imageTagTypo_le (images : List Image) :
    ((findings t images s).filter (·.code = .imageTagTypo)).length ≤ (unaccounted t images).length := by
  have := congrArg List.length (filter_isTypo_reports (t := t) (s := s) images)
  rw [length_filter_findings]
  exact this.trans_le (List.length_filterMap_le _ _)

/-- Nor are the findings about bare paths. -/
theorem length_filter_imagePathOutsideTag_le (images : List Image) :
    ((findings t images s).filter (·.code = .imagePathOutsideTag)).length ≤
      (unaccounted t images).length := by
  have := length_filter_isStray_foldl_le (t := t) (s := s) [] (unaccounted t images)
  rw [List.filter_nil, List.length_nil, Nat.zero_add] at this
  rw [length_filter_findings]
  exact this

/-- Something is reported if and only if some path of a text belongs to no image. Each such
path is covered by a finding at the first place where its text occurs, and there are at most as
many findings about mistyped tags as such paths, and at most as many about bare paths. -/
theorem findings_cover_unaccounted (t : Text) (images : List Image) (s : Settings) :
    (findings t images s = [] ↔ ∀ p, ¬ Unaccounted t images p) ∧
    (∀ p, Unaccounted t images p →
      ∃ n, Text.offsetOf? p t = some n ∧ ∃ d ∈ findings t images s, d.covers n = true) ∧
    ∃ ps : List Text, ps.Nodup ∧ (∀ p, p ∈ ps ↔ Unaccounted t images p) ∧
      ((findings t images s).filter (·.code = .imageTagTypo)).length ≤ ps.length ∧
      ((findings t images s).filter (·.code = .imagePathOutsideTag)).length ≤ ps.length := by
  refine ⟨?_, fun p hp => ?_, unaccounted t images, nodup_unaccounted t images,
    fun _ => mem_unaccounted, length_filter_imageTagTypo_le images,
    length_filter_imagePathOutsideTag_le images⟩
  · rw [findings, List.map_eq_nil_iff, reports, foldl_step_eq_nil_iff]
    simp only [true_and, ← mem_unaccounted]
    exact List.eq_nil_iff_forall_not_mem
  · obtain ⟨n, hn, -⟩ := hp.exists_offset
    exact ⟨n, hn, exists_covers_of_unaccounted hp hn⟩

/-! ## Where a path was read -/

/-- The text of a path that is read in a text also occurs in front of it, at a place inside of
another path that is read there. -/
def Shadowed (t : Text) (m : Match) : Prop :=
  ∃ o ∈ pathPattern.scan t, ∃ j, o.start < j ∧ j < o.stop ∧ j < m.start ∧ m.text <+: t.drop j

/-- The text of a path first occurs where the path is first read, unless it is shadowed. -/
theorem offsetOf?_eq_start_iff {m : Match} (hm : m ∈ pathPattern.scan t)
    (hfirst : ∀ o ∈ pathPattern.scan t, o.text = m.text → m.start ≤ o.start) :
    Text.offsetOf? m.text t = some m.start ↔ ¬ Shadowed t m := by
  obtain ⟨n, hn⟩ := exists_offset_of_mem_paths (mem_paths.mpr ⟨m, hm, rfl⟩)
  obtain ⟨hpre, hmin⟩ := Text.offsetOf?_eq_some hn
  obtain ⟨hread, hreads⟩ := mem_scan hm
  constructor
  · rintro h ⟨o, -, j, -, -, hj, hocc⟩
    obtain rfl := Option.some.inj (hn.symm.trans h)
    exact hmin j hj hocc
  · intro hclear
    have hle : n ≤ m.start := Nat.not_lt.mp fun h => hmin m.start h hread
    rcases Nat.lt_or_eq_of_le hle with hlt | rfl
    · -- Where it occurs earlier, either the path is read or another one lies across.
      rcases exists_start_or_straddles (fun _ _ => ne_nil_of_reads_path) hreads hpre with
        ⟨o, ho, rfl⟩ | ⟨o, ho, hbefore, hbehind⟩
      · obtain ⟨hoccurs, horeads⟩ := mem_scan ho
        have := hfirst o ho (single_pathPattern horeads hreads hoccurs hpre).1
        omega
      · exact absurd ⟨o, ho, n, hbefore, hbehind, hlt, hpre⟩ hclear
    · exact hn

/-- A path that belongs to no image is covered by a finding at the place where it is first
read if and only if it is not shadowed, or a finding about the first place of a path elsewhere
reaches it: a mistyped tag that is found around that place, or the bare path there. -/
theorem exists_covers_start_iff {images : List Image} {m : Match} (hm : m ∈ pathPattern.scan t)
    (hfirst : ∀ o ∈ pathPattern.scan t, o.text = m.text → m.start ≤ o.start)
    (himages : ∀ i ∈ images, ¬ m.text <:+: i.src) :
    (∃ d ∈ findings t images s, d.covers m.start = true) ↔
      ¬ Shadowed t m ∨
        ∃ p n, Unaccounted t images p ∧ Text.offsetOf? p t = some n ∧ n ≠ m.start ∧
          ((∃ r, typoReport t s p n = some r ∧ r.1.covers m.start = true) ∨
            (strayFinding t s p n ∈ findings t images s ∧
              n ≤ m.start + s.images.strayPadding ∧
              m.start ≤ n + p.length + s.images.strayPadding)) := by
  have hpath : Unaccounted t images m.text := ⟨⟨m, hm, rfl⟩, himages⟩
  obtain ⟨hread, hreads⟩ := mem_scan hm
  rw [← offsetOf?_eq_start_iff hm hfirst]
  constructor
  · rintro ⟨d, hd, hcovers⟩
    obtain ⟨o, ho, hoimages, n, hn, hreport⟩ := exists_of_mem_findings hd
    by_cases hplace : n = m.start
    · -- There is only one path at a place, so the finding is about this one.
      have hocc := (Text.offsetOf?_eq_some hn).1
      rw [hplace] at hocc
      have htext := (single_pathPattern (mem_scan ho).2 hreads hocc hread).1
      rw [← hplace, ← htext]
      exact .inl hn
    · refine .inr ⟨o.text, n, ⟨⟨o, ho, rfl⟩, hoimages⟩, hn, hplace, ?_⟩
      rcases hreport with ⟨r, hr, rfl⟩ | rfl
      · exact .inl ⟨r, hr, hcovers⟩
      · obtain ⟨hlow, -, hhigh⟩ := covers_strayFinding_iff.mp hcovers
        exact .inr ⟨hd, hlow, hhigh⟩
  · rintro (hn | ⟨p, n, ⟨⟨o, ho, rfl⟩, hoimages⟩, hn, -, ⟨r, hr, hcovers⟩ | ⟨hd, hlow, hhigh⟩⟩)
    · exact exists_covers_of_unaccounted hpath hn
    · obtain ⟨hd, -⟩ := mem_findings_isTypo.mpr ⟨o, ho, hoimages, n, r, hn, hr, rfl⟩
      exact ⟨r.1, hd, hcovers⟩
    · have hlen := Text.le_length_of_prefix_drop hread (ne_nil_of_reads_path hreads)
      exact ⟨_, hd, covers_strayFinding_iff.mpr ⟨hlow, by omega, hhigh⟩⟩

/-- A path that is also the end of another one. -/
def suffixed : Text := lit "ba_files/1.png and then a_files/1.png"

/-- The shorter path in it. -/
def suffixMatch : Match := ⟨24, lit "a_files/1.png", [lit "a", lit "1"]⟩

theorem scan_suffixed :
    pathPattern.scan suffixed = [⟨0, lit "ba_files/1.png", [lit "ba", lit "1"]⟩, suffixMatch] := by
  decide

theorem mem_scan_suffixed : suffixMatch ∈ pathPattern.scan suffixed := by
  rw [scan_suffixed]
  exact List.mem_cons_of_mem _ (List.mem_singleton_self _)

theorem first_scan_suffixed :
    ∀ o ∈ pathPattern.scan suffixed, o.text = suffixMatch.text → suffixMatch.start ≤ o.start := by
  rw [scan_suffixed]
  decide

/-- The shorter path is shadowed by the longer one. -/
theorem exists_covers_start_iff_suffixed :
    suffixMatch ∈ pathPattern.scan suffixed ∧
    (∀ o ∈ pathPattern.scan suffixed, o.text = suffixMatch.text → suffixMatch.start ≤ o.start) ∧
    (∀ i ∈ Image.all suffixed, ¬ suffixMatch.text <:+: i.src) ∧
    ((∃ d ∈ findings suffixed (Image.all suffixed) {}, d.covers 24 = true) ↔
      ¬ Shadowed suffixed suffixMatch ∨
        ∃ p n, Unaccounted suffixed (Image.all suffixed) p ∧ Text.offsetOf? p suffixed = some n ∧ n ≠ 24 ∧
          ((∃ r, typoReport suffixed {} p n = some r ∧ r.1.covers 24 = true) ∨
            (strayFinding suffixed {} p n ∈ findings suffixed (Image.all suffixed) {} ∧
              n ≤ 24 + 5 ∧ 24 ≤ n + p.length + 5))) := by
  have himages : ∀ i ∈ Image.all suffixed, ¬ suffixMatch.text <:+: i.src := by decide
  exact ⟨mem_scan_suffixed, first_scan_suffixed, himages,
    exists_covers_start_iff mem_scan_suffixed first_scan_suffixed himages⟩

/-- So a path can go unreported at the place where it is read. -/
theorem not_covers_start : ¬ ∀ (t : Text) (images : List Image) (s : Settings), ∀ m ∈ pathPattern.scan t,
    (∀ o ∈ pathPattern.scan t, o.text = m.text → m.start ≤ o.start) →
    (∀ i ∈ images, ¬ m.text <:+: i.src) → ∃ d ∈ findings t images s, d.covers m.start = true := by
  intro h
  have huncovered : ¬ ∃ d ∈ findings suffixed [] {}, d.covers suffixMatch.start = true := by
    decide
  exact huncovered (h suffixed [] {} suffixMatch mem_scan_suffixed first_scan_suffixed nofun)

end Worksheet.Typo
