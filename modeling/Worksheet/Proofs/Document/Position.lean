import Worksheet.Proofs.Document.Lines

/-!
# Positions and offsets

* `positionAt_eq`: the position of an offset is the one that is found by walking over the
  text, and looking it up by halving (`Document.lookUp?`) never fails;
* `positionAt_offsetAt`: from an offset to its position and back, and from a position to its
  offset and back.
-/

namespace Worksheet

/-! ## Looking up by halving -/

/-- The number of entries of a list that are not larger than `x`, where it is known to lie
between `lo` and `hi`: half of the entries in question are left out at once. -/
def bisect (xs : List Nat) (x lo hi : Nat) : Nat :=
  if lo < hi then
    if x < xs.getD ((lo + hi) / 2) 0 then bisect xs x lo ((lo + hi) / 2)
    else bisect xs x ((lo + hi) / 2 + 1) hi
  else lo
termination_by hi - lo

/-- What is looked for is never lost: it stays between the two ends. -/
theorem bisect_append {ys zs : List Nat} {x lo hi : Nat} (hys : ∀ y ∈ ys, y ≤ x) (hzs : ∀ z ∈ zs, x < z)
    (hlo : lo ≤ ys.length) (hhi : ys.length ≤ hi) (hlen : hi ≤ (ys ++ zs).length) :
    bisect (ys ++ zs) x lo hi = ys.length := by
  fun_induction bisect (ys ++ zs) x lo hi with
  | case1 lo hi hlt hless ih =>
    refine ih hlo (Nat.not_lt.mp fun hmid => ?_) (by omega)
    rw [List.getD_eq_getElem?_getD, List.getElem?_append_left hmid, List.getElem?_eq_getElem hmid] at hless
    exact Nat.not_lt.mpr (hys _ (List.getElem_mem hmid)) hless
  | case2 lo hi hlt hless ih =>
    refine ih (Nat.succ_le_of_lt (Nat.not_le.mp fun hmid => hless ?_)) hhi hlen
    have hmem : (lo + hi) / 2 - ys.length < zs.length := by
      rw [List.length_append] at hlen
      omega
    rw [List.getD_eq_getElem?_getD, List.getElem?_append_right hmid, List.getElem?_eq_getElem hmem]
    exact hzs _ (List.getElem_mem hmem)
  | case3 lo hi hlt => omega

namespace Document

/-- The offset in a text that is nearest to a given one. -/
def clamp (d : Document) (offset : Int) : Nat := (max 0 (min offset d.text.length)).toNat

/-- The position of an offset, looked up by halving in the starts of the lines. It is refused
if there is no such line, or if the line or the column would be negative. -/
def lookUp? (d : Document) (offset : Int) : Option Position := do
  let starts := d.text.lines.map (·.start)
  let stops := d.text.lines.map (·.stop)
  let line ← (bisect starts (d.clamp offset) 0 starts.length - 1 : Int).toNat?
  let start ← starts[line]?
  let stop ← stops[line]?
  let column ← (min (d.clamp offset) stop - start : Int).toNat?
  return ⟨line, column⟩

variable (d : Document) (offset : Int)

theorem clamp_le : d.clamp offset ≤ d.text.length := by
  rw [clamp]
  omega

theorem clamp_natCast {n : Nat} (h : n ≤ d.text.length) : d.clamp n = n := by
  rw [clamp]
  omega

/-- The position of an offset, in the line that it belongs to. -/
theorem exists_positionAt_eq :
    ∃ l, d.text.lines[(d.text.breaksUpTo (d.clamp offset)).length]? = some l ∧ d.text.IsLine l ∧
      l.start = (d.text.breaksUpTo (d.clamp offset)).getLastD 0 ∧ l.start ≤ min (d.clamp offset) l.stop ∧
      min (d.clamp offset) l.stop =
        (if d.text.inBreak (d.clamp offset) then d.clamp offset - 1 else d.clamp offset) ∧
      d.positionAt offset =
        ⟨(d.text.breaksUpTo (d.clamp offset)).length, min (d.clamp offset) l.stop - l.start⟩ := by
  have hn := d.clamp_le offset
  obtain ⟨l, hl, hline, hstart, hle, hnone⟩ := Text.exists_line hn
  refine ⟨l, hl, hline, hstart, Nat.le_min.mpr ⟨hle, hline.ordered⟩, hline.min_stop hle hn hnone, ?_⟩
  have hclamp : (min offset d.text.length).toNat = d.clamp offset := by
    rw [clamp]
    omega
  rw [positionAt, positionIn, hclamp, Text.countP_start_lines hn, Nat.add_sub_cancel,
    List.getD_eq_getElem?_getD, hl]
  rfl

theorem bisect_lines {n : Nat} (hn : n ≤ d.text.length) :
    bisect (d.text.lines.map (·.start)) n 0 (d.text.lines.map (·.start)).length =
      (d.text.breaksUpTo n).length + 1 := by
  obtain ⟨behind, hstarts, hbehind⟩ := Text.exists_map_start_eq hn
  rw [hstarts]
  refine bisect_append (fun e he => Text.le_of_mem_breaksUpTo he) hbehind (Nat.zero_le _) ?_ (Nat.le_refl _)
  rw [List.length_append]
  exact Nat.le_add_right _ _

/-- Looking up a position never fails. -/
theorem lookUp?_eq : d.lookUp? offset = some (d.positionAt offset) := by
  obtain ⟨l, hl, -, -, hle, -, hposition⟩ := d.exists_positionAt_eq offset
  have hindex : (((d.text.breaksUpTo (d.clamp offset)).length + 1 : Nat) - 1 : Int).toNat? =
      some (d.text.breaksUpTo (d.clamp offset)).length :=
    Int.mem_toNat?.mpr (by omega)
  have hcolumn : ((min (d.clamp offset) l.stop : Nat) - l.start : Int).toNat? =
      some (min (d.clamp offset) l.stop - l.start) :=
    Int.mem_toNat?.mpr (by omega)
  rw [hposition]
  simp only [lookUp?, bisect_lines d (d.clamp_le offset), hindex, List.getElem?_map, hl, Option.map_some,
    Option.bind_eq_bind, Option.bind_some, hcolumn]
  rfl

theorem positionAt_eq_walk : d.positionAt offset = d.text.walk (d.clamp offset) := by
  obtain ⟨l, -, -, hstart, hle, hstop, hposition⟩ := d.exists_positionAt_eq offset
  obtain ⟨hline, hcolumn⟩ := d.text.walk_eq (d.clamp offset)
  rw [hposition, hstop]
  rw [hstop] at hle
  generalize (if d.text.inBreak (d.clamp offset) then d.clamp offset - 1 else d.clamp offset) = place at *
  cases hwalk : d.text.walk (d.clamp offset) with
  | mk line column =>
    rw [hwalk, ← hstart] at hcolumn
    rw [← hline, hwalk, show place - l.start = column by simp only at hcolumn; omega]

/-- The position of an offset is found by walking over the text, and looking it up never fails.
Its line is the number of line breaks that end up to the offset, and its column is the distance
from the last of them; between `CR` and `LF` this is the column of the `CR`. -/
theorem positionAt_eq :
    d.lookUp? offset = some (d.positionAt offset) ∧
    d.positionAt offset = d.text.walk (d.clamp offset) ∧
    (d.positionAt offset).line = (d.text.breaksUpTo (d.clamp offset)).length ∧
    ((d.positionAt offset).column : Int) =
      (if d.text.inBreak (d.clamp offset) then (d.clamp offset : Int) - 1 else d.clamp offset) -
        (d.text.breaksUpTo (d.clamp offset)).getLastD 0 ∧
    d.lineCount = (d.text.breaksUpTo d.text.length).length + 1 := by
  obtain ⟨hline, hcolumn⟩ := d.text.walk_eq (d.clamp offset)
  rw [d.positionAt_eq_walk offset]
  refine ⟨by rw [d.lookUp?_eq, d.positionAt_eq_walk], rfl, hline, ?_, d.text.length_lines⟩
  split
  · rename_i hin
    have hpos := Text.pos_of_inBreak hin
    rw [if_pos hin] at hcolumn
    omega
  · rename_i hin
    rw [if_neg hin] at hcolumn
    omega

example : positionAt { text := lit "a\r\r\n\nb" } 3 = ⟨1, 0⟩ := by decide

/-! ## There and back -/

/-- The place of an offset in its line, or the end of the line within a line break. -/
theorem offsetAt_positionAt :
    (d.offsetAt (d.positionAt offset) : Int) =
      if d.text.inBreak (d.clamp offset) then (d.clamp offset : Int) - 1 else d.clamp offset := by
  obtain ⟨l, hl, -, -, hle, hstop, hposition⟩ := d.exists_positionAt_eq offset
  have hoffset : d.offsetAt (d.positionAt offset) = min (d.clamp offset) l.stop := by
    rw [hposition, offsetAt, hl]
    simp only
    omega
  rw [hoffset, hstop]
  split
  · rename_i hin
    have hpos := Text.pos_of_inBreak hin
    omega
  · rfl

/-- A place in a line has the number of the line, and its distance from the start of the line. -/
theorem positionAt_of_line {k n : Nat} {l : LineSpan} (hl : d.text.lines[k]? = some l)
    (hlo : l.start ≤ n) (hhi : n ≤ l.stop) : d.positionAt n = ⟨k, n - l.start⟩ := by
  have hline := Text.isLine_of_mem_lines (List.mem_of_getElem? hl)
  have hclamp : d.clamp n = n := d.clamp_natCast (Nat.le_trans hhi hline.within)
  obtain ⟨m, hm, -, -, -, -, hposition⟩ := d.exists_positionAt_eq n
  rw [hclamp, Text.length_breaksUpTo_of_line hl hlo hhi] at hm hposition
  obtain rfl := Option.some.inj (hm.symm.trans hl)
  rw [hposition, Nat.min_eq_left hhi]

/-- The last line goes up to the end of the text. -/
theorem exists_last_line :
    ∃ l, d.text.lines[d.lineCount - 1]? = some l ∧ l.stop = d.text.length := by
  obtain ⟨l, hl, hline, -, hle, hnone⟩ := Text.exists_line (Nat.le_refl d.text.length)
  have hstop := hline.min_stop hle (Nat.le_refl _) hnone
  rw [Text.not_inBreak_length, if_neg Bool.false_ne_true] at hstop
  refine ⟨l, ?_, Nat.le_antisymm hline.within (by omega)⟩
  rw [lineCount, Text.length_lines, Nat.add_sub_cancel, hl]

/-- From an offset to its position and back: the offset, or the nearest one of the text, or the
end of the line if it lies within a line break. From a position to its offset and back: the
position, or the end of its line if this is too short, or the end of the last line if there
are too few of them. -/
theorem positionAt_offsetAt :
    (∀ offset : Int, (d.offsetAt (d.positionAt offset) : Int) =
      if d.text.inBreak (d.clamp offset) then (d.clamp offset : Int) - 1 else d.clamp offset) ∧
    (∀ p : Position, p.line < d.lineCount →
      ∃ l, d.text.IsLine l ∧ (d.text.breaksUpTo l.start).length = p.line ∧
        d.positionAt (d.offsetAt p) = ⟨p.line, min p.column (l.stop - l.start)⟩) ∧
    ∀ p : Position, d.lineCount ≤ p.line →
      ∃ l, d.text.IsLine l ∧ (d.text.breaksUpTo l.start).length = d.lineCount - 1 ∧
        d.positionAt (d.offsetAt p) = ⟨d.lineCount - 1, l.stop - l.start⟩ := by
  refine ⟨d.offsetAt_positionAt, fun p hp => ?_, fun p hp => ?_⟩
  · have hl := List.getElem?_eq_getElem hp
    generalize d.text.lines[p.line] = l at hl
    have hline := Text.isLine_of_mem_lines (List.mem_of_getElem? hl)
    have hordered := hline.ordered
    refine ⟨l, hline, Text.length_breaksUpTo_of_line hl (Nat.le_refl _) hordered, ?_⟩
    have hoffset : d.offsetAt p = min (l.start + p.column) l.stop := by
      rw [offsetAt, hl]
    rw [hoffset, d.positionAt_of_line hl (by omega) (by omega)]
    rw [show min (l.start + p.column) l.stop - l.start = min p.column (l.stop - l.start) by omega]
  · obtain ⟨l, hl, hstop⟩ := d.exists_last_line
    have hline := Text.isLine_of_mem_lines (List.mem_of_getElem? hl)
    refine ⟨l, hline, Text.length_breaksUpTo_of_line hl (Nat.le_refl _) hline.ordered, ?_⟩
    have hoffset : d.offsetAt p = l.stop := by
      rw [offsetAt, List.getElem?_eq_none hp, hstop]
    rw [hoffset, d.positionAt_of_line hl hline.ordered (Nat.le_refl _)]

/-- Lines that end with a `CR`, a `CR LF` and a `LF`, and an empty last line. -/
def mixed : Document := { text := lit "a\r\r\nbc\n" }

theorem positionAt_offsetAt_mixed :
    (∃ l, mixed.text.IsLine l ∧ (mixed.text.breaksUpTo l.start).length = 2 ∧
      mixed.positionAt (mixed.offsetAt ⟨2, 7⟩) = ⟨2, min 7 (l.stop - l.start)⟩) ∧
    ∃ l, mixed.text.IsLine l ∧ (mixed.text.breaksUpTo l.start).length = 3 ∧
      mixed.positionAt (mixed.offsetAt ⟨9, 4⟩) = ⟨3, l.stop - l.start⟩ :=
  ⟨(positionAt_offsetAt mixed).2.1 ⟨2, 7⟩ (by decide), (positionAt_offsetAt mixed).2.2 ⟨9, 4⟩ (by decide)⟩

end Document

end Worksheet
