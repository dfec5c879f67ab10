import Worksheet.Proofs.Document.Position

/-!
# Ranges and spans

The range of a finding compares lines and columns, and its span compares offsets. Both agree up
to the places within line breaks, which have the position of the end of their line
(`Text.snap`):

* `Document.positionAt_le_iff`: positions are in the order of their offsets;
* `Diagnostic.locateAll_ranges`: the range of a finding holds the positions of the offsets in
  its span, and nothing but ranges is filled in.
-/

namespace Worksheet

/-! ## The order of positions -/

namespace Position

variable {p q r : Position}

theorem le_iff : p.le q = true ↔ p.line < q.line ∨ p.line = q.line ∧ p.column ≤ q.column := by
  simp [le]

theorem le_refl (p : Position) : p.le p = true := le_iff.mpr (.inr ⟨rfl, Nat.le_refl _⟩)

theorem le_trans (hpq : p.le q = true) (hqr : q.le r = true) : p.le r = true := by
  rw [le_iff] at *
  omega

theorem le_antisymm (hpq : p.le q = true) (hqp : q.le p = true) : p = q := by
  rw [le_iff] at hpq hqp
  rw [mk.injEq]
  omega

end Position

namespace Text

/-- The place that has the same position as an offset and does not lie within a line break. -/
def snap (t : Text) (n : Nat) : Nat := if t.inBreak n then n - 1 else n

variable {t : Text} {a b : Nat}

theorem snap_le (t : Text) (n : Nat) : t.snap n ≤ n := by
  rw [snap]
  split
  · exact Nat.sub_le n 1
  · exact Nat.le_refl n

theorem snap_le_snap (h : a ≤ b) : t.snap a ≤ t.snap b := by
  have ha := t.snap_le a
  by_cases hin : t.inBreak b = true
  · -- Only `b` itself can lie behind the place that `b` stands for.
    rcases Nat.lt_or_eq_of_le h with hlt | rfl
    · rw [snap.eq_def t b, if_pos hin]
      omega
    · exact Nat.le_refl _
  · rw [snap.eq_def t b, if_neg hin]
    omega

/-- Walking into a line break does not change the position. -/
theorem walk_snap (t : Text) (n : Nat) : t.walk (t.snap n) = t.walk n := by
  rw [snap]
  split
  · rename_i hin
    cases n with
    | zero => rfl
    | succ n =>
      have hends : ¬ t.breakEnds (n + 1) = true := by simp [not_breakEnds_of_inBreak hin]
      rw [walk, if_neg hends, if_pos hin, Nat.add_sub_cancel]
  · rfl

theorem walk_le_succ (t : Text) (n : Nat) : (t.walk n).le (t.walk (n + 1)) = true := by
  rw [walk]
  split
  · exact Position.le_iff.mpr (.inl (Nat.lt_succ_self _))
  · split
    · exact Position.le_refl _
    · exact Position.le_iff.mpr (.inr ⟨rfl, Nat.le_succ _⟩)

/-- Walking on never leads back. -/
theorem walk_le (h : a ≤ b) : (t.walk a).le (t.walk b) = true := by
  induction h with
  | refl => exact Position.le_refl _
  | step _ ih => exact Position.le_trans ih (t.walk_le_succ _)

end Text

namespace Document

variable (d : Document)

theorem offsetAt_positionAt_eq_snap (offset : Int) :
    d.offsetAt (d.positionAt offset) = d.text.snap (d.clamp offset) := by
  have h := d.offsetAt_positionAt offset
  rw [Text.snap]
  split at h
  · rename_i hin
    have hpos := Text.pos_of_inBreak hin
    rw [if_pos hin]
    omega
  · rename_i hin
    rw [if_neg hin]
    omega

/-- Positions are in the order of their offsets, where an offset within a line break counts as
the place in front of it. -/
theorem positionAt_le_iff (a b : Int) :
    (d.positionAt a).le (d.positionAt b) = true ↔
      d.text.snap (d.clamp a) ≤ d.text.snap (d.clamp b) := by
  have hle {a b : Int} (h : d.text.snap (d.clamp a) ≤ d.text.snap (d.clamp b)) :
      (d.positionAt a).le (d.positionAt b) = true := by
    rw [positionAt_eq_walk, positionAt_eq_walk, ← Text.walk_snap, ← Text.walk_snap _ (d.clamp b)]
    exact Text.walk_le h
  refine ⟨fun h => Nat.not_lt.mp fun hlt => ?_, hle⟩
  -- If the places are the other way round, the positions are the same, and so are the places.
  have hsame : d.positionAt a = d.positionAt b := Position.le_antisymm h (hle (Nat.le_of_lt hlt))
  have hoffset := congrArg d.offsetAt hsame
  rw [offsetAt_positionAt_eq_snap, offsetAt_positionAt_eq_snap] at hoffset
  omega

/-- A range holds the positions of the offsets in a span, and of no others, up to the places
within line breaks. -/
def Spans (r : TextRange) (start stop : Nat) : Prop :=
  ∀ o ≤ d.text.length, r.contains (d.positionAt o) = true ↔
    d.text.snap start ≤ d.text.snap o ∧ d.text.snap o ≤ d.text.snap stop

theorem spans_positionAt {start stop : Nat} (hstart : start ≤ d.text.length)
    (hstop : stop ≤ d.text.length) : d.Spans ⟨d.positionAt start, d.positionAt stop⟩ start stop := by
  intro o ho
  rw [TextRange.contains, Bool.and_eq_true_iff, positionAt_le_iff, positionAt_le_iff,
    d.clamp_natCast hstart, d.clamp_natCast hstop, d.clamp_natCast ho]

end Document

/-! ## Ranges that are filled in -/

namespace Diagnostic

/-- A finding without its ranges. -/
def withoutRanges (x : Diagnostic) : Diagnostic :=
  { x with range := none, fix := x.fix.map fun c => { c with range := none } }

variable (d : Document) (x : Diagnostic)

theorem withoutRanges_locate : (x.locate d).withoutRanges = x.withoutRanges := by
  simp only [withoutRanges, locate, locateBy, Correction.locateBy, Option.map_map]
  rfl

theorem locate_locate : (x.locate d).locate d = x.locate d := by
  simp only [locate, locateBy, Correction.locateBy, Option.map_map]
  rfl

/-- Filling in ranges

* keeps the findings in their number and order, and everything about them but the ranges;
* changes nothing when it is done again;
* gives every finding in the text, and every correction in the text, a range that holds the
  positions of the offsets in its span. So the position of an offset that a finding covers lies
  in the range of the finding. -/
theorem locateAll_ranges (ds : List Diagnostic) :
    (locateAll d ds).map withoutRanges = ds.map withoutRanges ∧
    locateAll d (locateAll d ds) = locateAll d ds ∧
    ∀ x ∈ locateAll d ds,
      (x.start ≤ d.text.length → x.stop ≤ d.text.length →
        ∃ r, x.range = some r ∧ d.Spans r x.start x.stop ∧
          ∀ o ≤ d.text.length, x.covers o = true → r.contains (d.positionAt o) = true) ∧
      ∀ c, x.fix = some c → c.start ≤ d.text.length → c.stop ≤ d.text.length →
        ∃ r, c.range = some r ∧ d.Spans r c.start c.stop := by
  have hlocate : locateAll d ds = ds.map (locate d) := rfl
  refine ⟨?_, ?_, ?_⟩
  · rw [hlocate, List.map_map]
    exact List.map_congr_left fun x _ => withoutRanges_locate d x
  · rw [hlocate]
    show (ds.map (locate d)).map (locate d) = ds.map (locate d)
    rw [List.map_map]
    exact List.map_congr_left fun x _ => locate_locate d x
  · intro x hx
    obtain ⟨y, -, rfl⟩ := List.mem_map.mp (hlocate ▸ hx)
    refine ⟨fun hstart hstop => ?_, fun c hc hstart hstop => ?_⟩
    · have hspans := d.spans_positionAt hstart hstop
      refine ⟨_, rfl, hspans, fun o ho hcovers => (hspans o ho).mpr ?_⟩
      obtain ⟨hlo, hhi⟩ := Bool.and_eq_true_iff.mp hcovers
      exact ⟨Text.snap_le_snap (Int.ofNat_le.mp (of_decide_eq_true hlo)),
        Text.snap_le_snap (Int.ofNat_le.mp (of_decide_eq_true hhi))⟩
    · obtain ⟨c', -, rfl⟩ := Option.map_eq_some_iff.mp hc
      exact ⟨_, rfl, d.spans_positionAt hstart hstop⟩

/-- A finding that starts between `CR` and `LF`. Its range holds the position of the place in
front of the `CR`, which is not in its span. -/
theorem locateAll_ranges_within_break :
    ∃ r, r.contains (Document.positionAt { text := lit "a\r\nb" } 1) = true ∧
      ¬ r.contains (Document.positionAt { text := lit "a\r\nb" } 4) = true ∧
      (locateAll { text := lit "a\r\nb" } [⟨.info, .markTerm, [], [], [], 2, 3, none, none⟩]).map (·.range) =
        [some r] := by
  obtain ⟨r, hr, hspans, -⟩ :=
    ((locateAll_ranges { text := lit "a\r\nb" } [⟨.info, .markTerm, [], [], [], 2, 3, none, none⟩]).2.2 _
      List.mem_cons_self).1 (by decide) (by decide)
  exact ⟨r, (hspans 1 (by decide)).mpr (by decide), fun h => absurd ((hspans 4 (by decide)).mp h) (by decide),
    congrArg (fun r => [r]) hr⟩

end Diagnostic

end Worksheet
