import Worksheet.Proofs.Correction.Splice
import Worksheet.Proofs.Fault
import Worksheet.Proofs.Marks.Grammar

/-!
# Correcting annotations

The corrections of wrong annotations change the pieces of which a document is
woven, one by one (`GradingLine.amend`), and keep everything between them
(`Marks.splice_weave`). The result is woven of free text and annotations again,
so the annotations that are found in it are known.
-/

namespace Worksheet

open Pattern

namespace GradingLine

/-- The annotation of a reading, whose number is not too long. -/
def ofReading (m : Match) : GradingLine where
  fullText := m.text
  points := digitsValue (m.group 0)
  unit := Text.lower (m.group 1)
  start := m.start

theorem ofMatch_eq_ok_iff (m : Match) (a : GradingLine) :
    ofMatch m = .ok a ↔ (m.group 0).length ≤ digitLimit ∧ a = ofReading m := by
  rw [ofMatch, bind_eq_ok]
  constructor
  · rintro ⟨n, hn, ha⟩
    rw [readDigits] at hn
    split at hn
    · rename_i hlen
      obtain rfl := Except.ok.inj hn
      exact ⟨hlen, (Except.ok.inj ha).symm⟩
    · exact nomatch hn
  · rintro ⟨hlen, rfl⟩
    exact ⟨digitsValue (m.group 0), if_pos hlen, rfl⟩

/-- The annotations of a text are found unless the number of one is too long. -/
theorem all_eq_ok_iff {t : Text} {as : List GradingLine} :
    all t = .ok as ↔
      (∀ m ∈ pattern.scan t, (m.group 0).length ≤ digitLimit) ∧ as = (pattern.scan t).map ofReading :=
  mapM_eq_ok_map ofMatch_eq_ok_iff

theorem agrees_zero (u : Text) : agrees 0 u = false := rfl

theorem agrees_unitFor {n : Nat} (h : 1 ≤ n) : agrees n (Text.lower (unitFor n)) = true := by
  by_cases hn : n = 1
  · subst hn
    decide
  · have hone : ¬ ((n : Int) = 1) := by omega
    have hlower : Text.lower (unitFor n) = lit "marks" := by
      rw [unitFor, if_neg hone]
      decide
    have hmany : decide ((n : Int) > 1) = true := decide_eq_true (by omega)
    rw [agrees, hlower, hmany]
    simp

/-! ## Pieces -/

/-- The number of a piece. -/
def pointsOf (q : Piece) : Nat := digitsValue (q.groups.getD 0 [])

/-- Whether the unit of a piece is the right one. -/
def agreesIn (q : Piece) : Bool := agrees (pointsOf q) (Text.lower (q.groups.getD 1 []))

/-- A piece with its annotation corrected. -/
def amend (q : Piece) : Piece :=
  if agreesIn q then q
  else ⟨canonical (pointsOf q), [decimal (pointsOf q), unitFor (pointsOf q)], q.after⟩

@[simp] theorem after_amend (q : Piece) : (amend q).after = q.after := by
  rw [amend]
  split <;> rfl

@[simp] theorem pointsOf_amend (q : Piece) : pointsOf (amend q) = pointsOf q := by
  rw [amend]
  split
  · rfl
  · exact digitsValue_decimal _

theorem agreesIn_amend {q : Piece} (h : 1 ≤ pointsOf q) : agreesIn (amend q) = true := by
  rw [amend]
  split
  · assumption
  · rw [agreesIn, pointsOf, List.getD_cons_zero, digitsValue_decimal]
    exact agrees_unitFor h

@[simp] theorem amend_amend (q : Piece) : amend (amend q) = amend q := by
  by_cases h : agreesIn (amend q) = true
  · rw [amend, if_pos h]
  · have hq : ¬ agreesIn q = true := fun hq => h (by rwa [amend, if_pos hq])
    rw [amend, if_neg h, pointsOf_amend, after_amend, amend, if_neg hq]

theorem fits_amend {q : Piece} (h : q.Fits pattern) : (amend q).Fits pattern := by
  rw [amend]
  split
  · exact h
  · exact ⟨reads_canonical _, h.free⟩

theorem fits_map_amend {qs : List Piece} (h : ∀ q ∈ qs, Piece.Fits pattern q) :
    ∀ q ∈ qs.map amend, Piece.Fits pattern q :=
  List.forall_mem_map.mpr fun q hq => fits_amend (h q hq)

/-- Correcting does not make a number longer. -/
theorem length_digits_amend {q : Piece} (h : q.Fits pattern) :
    ((amend q).groups.getD 0 []).length ≤ (q.groups.getD 0 []).length := by
  rw [amend]
  split
  · exact Nat.le_refl _
  · obtain ⟨ds, un, hgs, hds⟩ := exists_digits h.reads
    rw [pointsOf, hgs]
    exact length_decimal_digitsValue hds

theorem map_points_woven (n : Nat) (w : Text) (qs : List Piece) :
    ((woven n w qs).map ofReading).map (·.points) = qs.map pointsOf := by
  have h := congrArg (List.map fun gs : List Text => digitsValue (gs.getD 0 []))
    (map_groups_woven n w qs)
  rw [List.map_map, List.map_map] at h
  rw [List.map_map]
  exact h

end GradingLine

namespace Marks

open GradingLine

/-! ## Corrections -/

/-- The correction of a wrong annotation. -/
def correction (a : GradingLine) : Correction := ⟨a.start, a.stop, canonical a.points, none⟩

/-- The corrections of the wrong ones of annotations. -/
def corrections (as : List GradingLine) : List Correction := (wrong as).map correction

theorem findings_eq_ok {t : Text} {as : List GradingLine} (h : GradingLine.all t = .ok as)
    (s : Settings) : findings t s = .ok ((wrong as).map (finding s)) := by
  rw [findings, h]
  rfl

theorem filterMap_fix_finding (s : Settings) (as : List GradingLine) :
    ((wrong as).map (finding s)).filterMap (·.fix) = corrections as := by
  rw [List.filterMap_map, corrections, ← List.filterMap_eq_map]
  rfl

theorem exists_of_mem_corrections {ms : List Match} {c : Correction}
    (h : c ∈ corrections (ms.map ofReading)) : ∃ m ∈ ms, c.start = m.start ∧ c.stop = m.stop := by
  obtain ⟨a, ha, rfl⟩ := List.mem_map.mp h
  obtain ⟨m, hm, rfl⟩ := List.mem_map.mp (List.mem_of_mem_filter ha)
  exact ⟨m, hm, rfl, rfl⟩

theorem between_of_mem_corrections {n : Nat} {w : Text} {qs : List Piece} {c : Correction}
    (h : c ∈ corrections ((woven n w qs).map ofReading)) :
    c.Between (n + w.length) (n + (weave w qs).length) := by
  obtain ⟨m, hm, hs, he⟩ := exists_of_mem_corrections h
  have hb := bounds_of_mem_woven hm
  have hstop : m.start ≤ m.stop := Nat.le_add_right ..
  exact ⟨by omega, by omega, by omega⟩

theorem pairwise_corrections (n : Nat) (w : Text) {qs : List Piece}
    (hq : ∀ q ∈ qs, Piece.Fits pattern q) :
    (corrections ((woven n w qs).map ofReading)).Pairwise Correction.Before := by
  have hne : ∀ m ∈ woven n w qs, m.start < m.stop := by
    intro m hm
    obtain ⟨q, hmem, htext, -⟩ := mem_of_mem_woven hm
    have := List.length_pos_iff.mpr (apart.nonempty (hq q hmem).reads)
    rw [Match.stop, htext]
    omega
  have hpw : (woven n w qs).Pairwise fun a b =>
      Correction.Before (correction (ofReading a)) (correction (ofReading b)) := by
    refine (pairwise_woven n w qs).imp_of_mem fun ha _ hab => ⟨?_, hab⟩
    exact Nat.lt_of_lt_of_le (hne _ ha) hab
  rw [corrections, List.pairwise_map]
  exact List.Pairwise.filter _ (List.pairwise_map.mpr hpw)

/-- The corrections of wrong annotations change the pieces one by one. -/
theorem splice_weave (n : Nat) (w : Text) (qs : List Piece) :
    Correction.splice n (corrections ((woven n w qs).map ofReading)) (weave w qs) =
      weave w (qs.map amend) := by
  induction qs generalizing n w with
  | nil => rfl
  | cons q qs ih =>
    have hfront : ∀ c ∈ corrections ((woven n w (q :: qs)).map ofReading),
        n + w.length ≤ c.start ∧ c.start ≤ c.stop := fun c hc =>
      ⟨(between_of_mem_corrections hc).start, (between_of_mem_corrections hc).span⟩
    rw [weave, Correction.splice_append hfront, List.map_cons, weave, after_amend]
    congr 1
    rw [woven, List.map_cons, corrections, wrong, List.filter_cons]
    -- An annotation that agrees is text in front of the next correction.
    by_cases h : agreesIn q = true
    · have hdrop : (!agrees (ofReading ⟨n + w.length, q.text, q.groups⟩).points
          (ofReading ⟨n + w.length, q.text, q.groups⟩).unit) = false := congrArg (!·) h
      have hrest : ∀ c ∈ corrections ((woven (n + w.length + q.text.length) q.after qs).map ofReading),
          n + w.length + q.text.length ≤ c.start ∧ c.start ≤ c.stop := fun c hc =>
        ⟨Nat.le_trans (Nat.le_add_right ..) (between_of_mem_corrections hc).start,
          (between_of_mem_corrections hc).span⟩
      rw [hdrop, amend, if_pos h]
      exact (Correction.splice_append hrest).trans (congrArg (q.text ++ ·) (ih _ _))
    · have hkeep : (!agrees (ofReading ⟨n + w.length, q.text, q.groups⟩).points
          (ofReading ⟨n + w.length, q.text, q.groups⟩).unit) = true := congrArg (!·) (by simpa using h)
      rw [hkeep, amend, if_neg h]
      exact (Correction.splice_whole _ _ _ _ _ _).trans (congrArg (canonical (pointsOf q) ++ ·) (ih _ _))

/-- Applying the corrections of the findings in a woven text. -/
theorem applyAll_weave (s : Settings) (w : Text) {qs : List Piece}
    (hq : ∀ q ∈ qs, Piece.Fits pattern q) {as : List GradingLine}
    (has : as = (woven 0 w qs).map ofReading) :
    Correction.applyAll (weave w qs) ((wrong as).map (finding s)) =
      (weave w (qs.map amend), (wrong as).length) := by
  subst has
  rw [Correction.applyAll_eq_splice (filterMap_fix_finding s _) (pairwise_corrections 0 w hq) ?_,
    splice_weave, corrections, List.length_map]
  intro c hc
  obtain ⟨-, hspan, hstop⟩ := between_of_mem_corrections hc
  exact ⟨Nat.zero_le _, hspan, by rwa [Nat.zero_add] at hstop⟩

/-! ## Corrected documents -/

/-- The annotations of a text with corrected pieces. -/
theorem all_weave_amend {w : Text} {qs : List Piece} (hw : pattern.Free w)
    (hq : ∀ q ∈ qs, Piece.Fits pattern q)
    (hlen : ∀ q ∈ qs, (q.groups.getD 0 []).length ≤ digitLimit) :
    GradingLine.all (weave w (qs.map amend)) = .ok ((woven 0 w (qs.map amend)).map ofReading) := by
  have hlen' : ∀ q ∈ qs.map amend, (q.groups.getD 0 []).length ≤ digitLimit :=
    List.forall_mem_map.mpr fun q hqs => Nat.le_trans (length_digits_amend (hq q hqs)) (hlen q hqs)
  rw [all_eq_ok_iff, scan_weave apart hw (fits_map_amend hq)]
  exact ⟨(forall_groups_woven_iff (P := fun gs => (gs.getD 0 []).length ≤ digitLimit)).mpr hlen', rfl⟩

/-- In a text with corrected pieces, an annotation with at least one point has the
right unit. -/
theorem agrees_of_mem_woven_amend {w : Text} {qs : List Piece} {a : GradingLine}
    (ha : a ∈ (woven 0 w (qs.map amend)).map ofReading) (hp : 1 ≤ a.points) :
    agrees a.points a.unit = true := by
  obtain ⟨m, hm, rfl⟩ := List.mem_map.mp ha
  refine (forall_groups_woven_iff (P := fun gs => 1 ≤ digitsValue (gs.getD 0 []) →
    agrees (digitsValue (gs.getD 0 [])) (Text.lower (gs.getD 1 [])) = true)).mpr ?_ m hm hp
  refine List.forall_mem_map.mpr fun q _ hpoints => agreesIn_amend (q := q) ?_
  rw [← pointsOf_amend]
  exact hpoints

/-- In a text with corrected pieces, only annotations without points are wrong. -/
theorem wrong_woven_amend (w : Text) (qs : List Piece) :
    wrong ((woven 0 w (qs.map amend)).map ofReading) =
      ((woven 0 w (qs.map amend)).map ofReading).filter (·.points = 0) := by
  refine List.filter_congr fun a ha => ?_
  rcases Nat.eq_zero_or_pos a.points with hp | hp
  · rw [hp, Int.natCast_zero, agrees_zero]
    rfl
  · rw [agrees_of_mem_woven_amend ha hp]
    exact (decide_eq_false (Nat.ne_of_gt hp)).symm

/-- The annotations of a document are found unless the number of one has too many
digits. Then every wrong one is corrected: the numbers stay the same, only
annotations with no points are still reported, and correcting the document again
does not change it. -/
theorem applyAll_findings (s : Settings) (t : Text) :
    ((∃ as, GradingLine.all t = .ok as) ↔
      ∀ m ∈ GradingLine.pattern.scan t, (m.group 0).length ≤ digitLimit) ∧
    ∀ as, GradingLine.all t = .ok as → ∃ ds t₂ as₂ ds₂,
      findings t s = .ok ds ∧
      Correction.applyAll t ds = (t₂, (as.filter fun a => !agrees a.points a.unit).length) ∧
      GradingLine.all t₂ = .ok as₂ ∧
      as₂.map (·.points) = as.map (·.points) ∧
      (∀ a ∈ as₂, 1 ≤ a.points → agrees a.points a.unit = true) ∧
      findings t₂ s = .ok ds₂ ∧
      ds₂ = (as₂.filter (·.points = 0)).map (finding s) ∧
      (Correction.applyAll t₂ ds₂).1 = t₂ := by
  refine ⟨⟨fun ⟨as, h⟩ => (all_eq_ok_iff.mp h).1, fun h => ⟨_, all_eq_ok_iff.mpr ⟨h, rfl⟩⟩⟩,
    fun as h => ?_⟩
  obtain ⟨w, qs, rfl, hw, hq⟩ := exists_weave apart t
  obtain ⟨hlen, has⟩ := all_eq_ok_iff.mp h
  rw [scan_weave apart hw hq] at hlen has
  have hlen' := (forall_groups_woven_iff (P := fun gs => (gs.getD 0 []).length ≤ digitLimit)).mp hlen
  have hall := all_weave_amend hw hq hlen'
  refine ⟨_, _, _, _, findings_eq_ok h s, applyAll_weave s w hq has, hall, ?_,
    fun a ha hp => agrees_of_mem_woven_amend ha hp, findings_eq_ok hall s,
    congrArg _ (wrong_woven_amend w qs), ?_⟩
  · rw [has, map_points_woven, map_points_woven, List.map_map]
    exact List.map_congr_left fun q _ => pointsOf_amend q
  · rw [applyAll_weave s w (fits_map_amend hq) rfl, List.map_map]
    exact congrArg (weave w) (List.map_congr_left fun q _ => amend_amend q)

theorem applyAll_findings_two :
    ∃ ds t₂ as₂ ds₂,
      findings (lit "<P align=\"right\"><b>(TOTAL for question=٢mark)</b></p>") {} = .ok ds ∧
      Correction.applyAll (lit "<P align=\"right\"><b>(TOTAL for question=٢mark)</b></p>") ds = (t₂, 1) ∧
      GradingLine.all t₂ = .ok as₂ ∧
      as₂.map (·.points) = [2] ∧
      (∀ a ∈ as₂, 1 ≤ a.points → agrees a.points a.unit = true) ∧
      findings t₂ {} = .ok ds₂ ∧
      ds₂ = (as₂.filter (·.points = 0)).map (finding {}) ∧
      (Correction.applyAll t₂ ds₂).1 = t₂ :=
  (applyAll_findings {} (lit "<P align=\"right\"><b>(TOTAL for question=٢mark)</b></p>")).2
    [⟨lit "<P align=\"right\"><b>(TOTAL for question=٢mark)</b></p>", 2, lit "mark", 0⟩]
    (all_eq_ok_iff.mpr ⟨by decide, by decide⟩)

end Marks

end Worksheet
