import Worksheet.Proofs.Engine.Isolation
import Worksheet.Proofs.Image.Span
import Worksheet.Proofs.Marks.Rewriting

/-!
# Findings and the text

Every finding of the stock rules lies in the text, and so does its correction
(`Diagnostic.Within`); and its span can be traced back to what the finding is about
(`Diagnostic.Traced`): an annotation, an image, a mistyped tag, or a bare path.

* `Marks.traced_of_mem_findings`, `Typo.traced_of_mem_findings`,
  `Folder.traced_of_mem_findings`, `Numbering.traced_of_mem_findings`: the findings
  of the single checks;
* `Engine.traced_findings`: those of the rules, and of a whole check.
-/

namespace Worksheet

namespace Diagnostic

/-- The span of a finding is not empty and lies in a text of the given length. A
correction starts where the finding does; it reaches at least as far, but not beyond
the text. -/
structure Within (length : Nat) (x : Diagnostic) : Prop where
  nonempty : x.start < x.stop
  stop : x.stop ≤ length
  fix : ∀ c, x.fix = some c → c.start = x.start ∧ x.stop ≤ c.stop ∧ c.stop ≤ length

/-- What a finding of each kind is about. -/
def Traced (t : Text) (s : Settings) (x : Diagnostic) : Prop :=
  match x.code with
  | .markTerm =>
    ∃ m ∈ GradingLine.pattern.scan t, m.start = x.start ∧ m.text = t.slice x.start x.stop
  | .imageTagTypo =>
    ∃ m ∈ Typo.pathPattern.scan t, ∃ n, Text.offsetOf? m.text t = some n ∧
      x.message = lit "Possible typo in image tag. Should be " ++ Typo.correctTag m.text ∧
      (∃ p ∈ Typo.patterns, ∃ gs, p.Reads (t.slice x.start x.stop) gs) ∧
      n ≤ x.start + s.images.typoWindow ∧ x.stop ≤ n + m.text.length + s.images.typoWindow
  | .imagePathOutsideTag =>
    ∃ m ∈ Typo.pathPattern.scan t, ∃ a b : Text, t.slice x.start x.stop = a ++ (m.text ++ b) ∧
      a.length ≤ s.images.strayPadding ∧ b.length ≤ s.images.strayPadding
  | .imageFolder | .imageDuplicateNumber | .imageNumberStart | .imageNumberGap =>
    ∃ i ∈ Image.all t, i.start = x.start ∧ i.fullText = t.slice x.start x.stop

/-- Where a finding is does not depend on lines and columns. -/
theorem Within.locate {length : Nat} {x : Diagnostic} (h : x.Within length) (d : Document) :
    (x.locate d).Within length where
  nonempty := h.nonempty
  stop := h.stop
  fix := by
    intro c hc
    obtain ⟨c', hc', rfl⟩ := Option.map_eq_some_iff.mp hc
    exact h.fix c' hc'

theorem Traced.locate {t : Text} {s : Settings} {x : Diagnostic} (h : x.Traced t s) (d : Document) :
    (x.locate d).Traced t s := h

/-- A finding that has the span of an image. -/
theorem within_of_image {t : Text} {i : Image} (hi : i ∈ Image.all t) {x : Diagnostic}
    (hstart : (x.start : Int) = i.start) (hstop : (x.stop : Int) = i.stop)
    (hfix : ∀ c, x.fix = some c → c.start = x.start ∧ c.stop = x.stop) :
    x.Within t.length ∧ i.start = x.start ∧ i.fullText = t.slice x.start x.stop := by
  obtain ⟨k, hk, hend, hne, hpre⟩ := Image.bounds_of_mem_all hi
  have hlen := Text.le_length_of_prefix_drop hpre hne
  have hpos := List.length_pos_iff.mpr hne
  obtain rfl : x.start = k := by omega
  have hx : x.stop = x.start + i.fullText.length := by omega
  refine ⟨⟨by omega, by omega, fun c hc => ?_⟩, hk, ?_⟩
  · obtain ⟨hcstart, hcstop⟩ := hfix c hc
    omega
  · rw [hx, Text.slice_of_prefix_drop hpre]

end Diagnostic

/-! ## The single checks -/

/-- A finding of the rule for annotations is about an annotation, which its
correction replaces as a whole. -/
theorem Marks.exists_of_mem_findings {t : Text} {s : Settings} {ds : List Diagnostic}
    (h : findings t s = .ok ds) {x : Diagnostic} (hx : x ∈ ds) :
    ∃ m ∈ GradingLine.pattern.scan t, x = finding s (GradingLine.ofReading m) := by
  obtain ⟨as, has, h⟩ := bind_eq_ok.mp h
  obtain rfl := Except.ok.inj h
  obtain ⟨a, ha, rfl⟩ := List.mem_map.mp hx
  obtain ⟨-, rfl⟩ := GradingLine.all_eq_ok_iff.mp has
  obtain ⟨m, hm, rfl⟩ := List.mem_map.mp (List.mem_of_mem_filter ha)
  exact ⟨m, hm, rfl⟩

theorem Marks.traced_of_mem_findings {t : Text} {s : Settings} {ds : List Diagnostic}
    (h : findings t s = .ok ds) {x : Diagnostic} (hx : x ∈ ds) :
    x.Within t.length ∧ x.Traced t s := by
  obtain ⟨m, hm, rfl⟩ := exists_of_mem_findings h hx
  obtain ⟨hpre, hreads⟩ := Pattern.mem_scan hm
  have hne := GradingLine.apart.nonempty hreads
  have hlen := Text.le_length_of_prefix_drop hpre hne
  have hpos := List.length_pos_iff.mpr hne
  refine ⟨⟨?_, hlen, fun c hc => ?_⟩, m, hm, rfl, (Text.slice_of_prefix_drop hpre).symm⟩
  · show m.start < m.start + m.text.length
    omega
  · obtain rfl := Option.some.inj hc
    exact ⟨rfl, Nat.le_refl _, hlen⟩

theorem Typo.traced_of_mem_findings {t : Text} {images : List Image} {s : Settings} {x : Diagnostic}
    (hx : x ∈ findings t images s) : x.Within t.length ∧ x.Traced t s := by
  obtain ⟨m, hm, -, n, hn, ⟨r, hr, rfl⟩ | rfl⟩ := exists_of_mem_findings hx
  · obtain ⟨u, hreads, hne, hpre, hfinding, hlow, hhigh⟩ := exists_of_typoReport hr
    have hlen := Text.le_length_of_prefix_drop hpre hne
    have hpos := List.length_pos_iff.mpr hne
    have hstop : r.1.stop = r.1.start + u.length := congrArg (·.stop) hfinding
    obtain ⟨hend, hend'⟩ := tagEnd_bounds hlen
    have hcode : r.1.code = .imageTagTypo := congrArg (·.code) hfinding
    refine ⟨⟨by omega, by omega, fun c hc => ?_⟩, ?_⟩
    · rw [hfinding] at hc
      obtain rfl := Option.some.inj hc
      refine ⟨rfl, ?_, ?_⟩
      · rw [hstop]
        show r.1.start + u.length ≤ (tagEnd t (r.1.start + u.length : Nat)).toNat
        omega
      · show (tagEnd t (r.1.start + u.length : Nat)).toNat ≤ t.length
        omega
    · rw [Diagnostic.Traced, hcode]
      refine ⟨m, hm, n, hn, congrArg (·.message) hfinding, ?_, hlow, by omega⟩
      rw [hstop, Text.slice_of_prefix_drop hpre]
      exact hreads
  · obtain ⟨hplace, -⟩ := Text.offsetOf?_eq_some hn
    have hpath := ne_nil_of_mem_paths hm
    obtain ⟨a, b, ha, hb, hpre, hstop⟩ := exists_of_strayFinding (s := s) hplace hpath
    have hne : a ++ (m.text ++ b) ≠ [] := by simp [hpath]
    have hlen := Text.le_length_of_prefix_drop hpre hne
    have hpos := List.length_pos_iff.mpr hne
    refine ⟨⟨by omega, by omega, fun c hc => nomatch hc⟩, m, hm, a, b, ?_, ha, hb⟩
    rw [hstop, Text.slice_of_prefix_drop hpre]

theorem Folder.traced_of_mem_findings {t folder : Text} {s : Settings} {ds : List Diagnostic}
    (h : findings (Image.all t) folder s = .ok ds) {x : Diagnostic} (hx : x ∈ ds) :
    x.Within t.length ∧ x.Traced t s := by
  obtain ⟨i, hi, -, hstart, hstop, hcode, hfix⟩ := exists_of_mem_findings h hx
  obtain ⟨hwithin, hplace, htext⟩ := Diagnostic.within_of_image hi hstart hstop fun c hc => by
    rw [hfix] at hc
    split at hc
    · exact nomatch hc
    · obtain rfl := Option.some.inj hc
      exact ⟨rfl, rfl⟩
  refine ⟨hwithin, ?_⟩
  rw [Diagnostic.Traced, hcode]
  exact ⟨i, hi, hplace, htext⟩

theorem Numbering.traced_of_mem_findings {t : Text} {s : Settings} {ds : List Diagnostic}
    (h : findings (Image.all t) s = .ok ds) {x : Diagnostic} (hx : x ∈ ds) :
    x.Within t.length ∧ x.Traced t s := by
  obtain ⟨i, hi, p, hstart, hstop, hcode, hfix⟩ := exists_of_mem_findings h hx
  obtain ⟨hwithin, hplace, htext⟩ := Diagnostic.within_of_image hi hstart hstop fun c hc => by
    rw [hfix] at hc
    exact nomatch hc
  refine ⟨hwithin, ?_⟩
  rw [Diagnostic.Traced, hcode]
  cases p <;> exact ⟨i, hi, hplace, htext⟩

/-! ## The rules -/

theorem Images.mem_findings {d : Document} {s : Settings} {images : List Image}
    {typos ds : List Diagnostic} (h : findings d s images typos = .ok ds) {x : Diagnostic}
    (hx : x ∈ ds) :
    x ∈ typos ∨
      (∃ ds', Folder.findings images (Image.folderFor d.name s.images.folderSuffix) s = .ok ds' ∧
        x ∈ ds') ∨
      ∃ ds', Numbering.findings images s = .ok ds' ∧ x ∈ ds' := by
  rw [findings_eq] at h
  obtain ⟨misplaced, hm, h⟩ := bind_eq_ok.mp h
  obtain ⟨misnumbered, hn, h⟩ := bind_eq_ok.mp h
  obtain rfl := Except.ok.inj h
  rw [List.mem_append, List.mem_append, or_assoc] at hx
  exact hx.imp_right (Or.imp (fun hx => ⟨_, hm, hx⟩) fun hx => ⟨_, hn, hx⟩)

theorem Engine.traced_of_mem_result {d : Document} {s : Settings} {r : Rule} (hr : r ∈ stockRules)
    {ds : List Diagnostic} (h : (r.run d s).result = .ok ds) {x : Diagnostic} (hx : x ∈ ds) :
    x.Within d.text.length ∧ x.Traced d.text s := by
  rcases List.mem_pair.mp hr with rfl | rfl
  · exact Marks.traced_of_mem_findings ((Marks.result_run_rule d s).symm.trans h) hx
  · rcases Images.mem_findings h hx with hx | ⟨ds', hds, hx⟩ | ⟨ds', hds, hx⟩
    · exact Typo.traced_of_mem_findings hx
    · exact Folder.traced_of_mem_findings hds hx
    · exact Numbering.traced_of_mem_findings hds hx

/-- Every finding of a stock rule that does not fail lies in the text and can be
traced back to what it is about, and so can every finding of a check. -/
theorem Engine.traced_findings (s : Settings) (d : Document) (moment : Moment) (duration : Binary64)
    (j : Journal) :
    (∀ r ∈ stockRules, ∀ ds, (r.run d s).result = .ok ds →
      ∀ x ∈ ds, x.Within d.text.length ∧ x.Traced d.text s) ∧
    ∀ x ∈ ((stock s).validate d moment duration j).1.diagnostics,
      x.Within d.text.length ∧ x.Traced d.text s := by
  refine ⟨fun r hr ds h x hx => traced_of_mem_result hr h hx, fun x hx => ?_⟩
  obtain ⟨r, hr, ds, h, y, hy, rfl⟩ := exists_of_mem_diagnostics hx
  obtain ⟨hwithin, htraced⟩ := traced_of_mem_result (s := s) hr h hy
  exact ⟨hwithin.locate d, htraced.locate d⟩

/-- A mistyped tag, as a finding of the rule and of a check. -/
theorem Engine.traced_findings_typo :
    (∃ ds, (Images.rule.run ⟨lit "<im src=\"a_files/1.png\">", lit "a.html", none⟩ {}).result = .ok ds ∧
      ∃ x ∈ ds, x.code = .imageTagTypo ∧ x.Within 24 ∧
        x.Traced (lit "<im src=\"a_files/1.png\">") {}) ∧
    ∃ x ∈ ((stock {}).validate ⟨lit "<im src=\"a_files/1.png\">", lit "a.html", none⟩
        ⟨⟨2024, 1, 1⟩, 0, 0, 0, 0, none⟩ .zero {}).1.diagnostics,
      x.code = .imageTagTypo ∧ x.Within 24 ∧ x.Traced (lit "<im src=\"a_files/1.png\">") {} := by
  have htraced := traced_findings {} ⟨lit "<im src=\"a_files/1.png\">", lit "a.html", none⟩
    ⟨⟨2024, 1, 1⟩, 0, 0, 0, 0, none⟩ .zero {}
  have hrule : (Images.rule.run ⟨lit "<im src=\"a_files/1.png\">", lit "a.html", none⟩ {}).result =
      .ok [Typo.typoFinding (lit "<im src=\"a_files/1.png\">") {} (lit "a_files/1.png") 0 23] := by
    decide +kernel
  have hcheck : ∃ x ∈ ((stock {}).validate ⟨lit "<im src=\"a_files/1.png\">", lit "a.html", none⟩
      ⟨⟨2024, 1, 1⟩, 0, 0, 0, 0, none⟩ .zero {}).1.diagnostics, x.code = .imageTagTypo := by
    decide +kernel
  obtain ⟨x, hx, hcode⟩ := hcheck
  exact ⟨⟨_, hrule, _, List.mem_singleton_self _, rfl,
    htraced.1 _ (List.mem_cons_of_mem _ List.mem_cons_self) _ hrule _ (List.mem_singleton_self _)⟩,
    x, hx, hcode, htraced.2 x hx⟩

end Worksheet
