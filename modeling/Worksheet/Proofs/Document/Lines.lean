import Worksheet.Proofs.Document

/-!
# Line breaks

Where the line breaks of a text end can be seen at every single place
(`Text.breakEnds`): behind a `LF`, and behind a `CR` that no `LF` follows. `Text.lines` agrees
with this:

* `map_start_lines`: the lines start at the front of the text and where line breaks end;
* `isLine_of_mem_lines`: each of them goes up to the next line break;
* `length_breaksUpTo_of_line`: the number of a line is the number of line breaks up to it.
-/

namespace Worksheet.Text

/-- Whether a line break ends at an offset: a `LF` stands in front of it, or a `CR` that no
`LF` follows. So `CR LF` is one line break. -/
def breakEnds (t : Text) : Nat → Bool
  | 0 => false
  | n + 1 => t[n]? == some '\n' || t[n]? == some '\r' && t[n + 1]? != some '\n'

/-- Whether an offset lies between the `CR` and the `LF` of a line break. -/
def inBreak (t : Text) : Nat → Bool
  | 0 => false
  | n + 1 => t[n]? == some '\r' && t[n + 1]? == some '\n'

/-- The offsets up to `n` where line breaks end. -/
def breaksUpTo (t : Text) (n : Nat) : List Nat := (List.range (n + 1)).filter t.breakEnds

/-- The position of an offset, found by walking over the text up to it. -/
def walk (t : Text) : Nat → Position
  | 0 => ⟨0, 0⟩
  | n + 1 =>
    if t.breakEnds (n + 1) then ⟨(walk t n).line + 1, 0⟩
    else if t.inBreak (n + 1) then walk t n
    else ⟨(walk t n).line, (walk t n).column + 1⟩

/-- A line without its break: it starts where the text starts or a line break ends, and it
ends where the text ends or a line break starts. -/
structure IsLine (t : Text) (l : LineSpan) : Prop where
  ordered : l.start ≤ l.stop
  within : l.stop ≤ t.length
  begins : l.start = 0 ∨ t.breakEnds l.start = true
  plain : ∀ i, l.start ≤ i → i < l.stop → t[i]? ≠ some '\r' ∧ t[i]? ≠ some '\n'
  ended : l.stop = t.length ∨ t.breakEnds (l.stop + 1) = true ∨ t.inBreak (l.stop + 1) = true

variable {t : Text} {l : LineSpan} {n : Nat}

theorem breakEnds_succ_iff :
    t.breakEnds (n + 1) = true ↔ t[n]? = some '\n' ∨ t[n]? = some '\r' ∧ t[n + 1]? ≠ some '\n' := by
  simp [breakEnds]

theorem inBreak_succ_iff :
    t.inBreak (n + 1) = true ↔ t[n]? = some '\r' ∧ t[n + 1]? = some '\n' := by
  simp [inBreak]

theorem pos_of_inBreak (h : t.inBreak n = true) : 0 < n := by
  cases n with
  | zero => exact nomatch h
  | succ n => exact Nat.succ_pos n

/-- A line break does not end within another one. -/
theorem not_breakEnds_of_inBreak (h : t.inBreak n = true) : t.breakEnds n = false := by
  cases n with
  | zero => rfl
  | succ n =>
    obtain ⟨hcr, hlf⟩ := inBreak_succ_iff.mp h
    simp [breakEnds, hcr, hlf]

/-- Behind the place between `CR` and `LF` a line break ends. -/
theorem breakEnds_succ_of_inBreak (h : t.inBreak n = true) : t.breakEnds (n + 1) = true := by
  cases n with
  | zero => exact nomatch h
  | succ n => exact breakEnds_succ_iff.mpr (.inl (inBreak_succ_iff.mp h).2)

theorem not_inBreak_length (t : Text) : t.inBreak t.length = false := by
  cases h : t.length with
  | zero => rfl
  | succ n =>
    have : t[n + 1]? = none := List.getElem?_eq_none (Nat.le_of_eq h)
    simp [inBreak, this]

namespace IsLine

/-- In a line, and at its end, no line break ends. -/
theorem not_breakEnds (h : t.IsLine l) (hlo : l.start < n) (hhi : n ≤ l.stop) :
    t.breakEnds n = false := by
  cases n with
  | zero => rfl
  | succ n =>
    obtain ⟨hcr, hlf⟩ := h.plain n (by omega) (by omega)
    simp [breakEnds, hcr, hlf]

/-- No place of a line lies within a line break. -/
theorem not_inBreak (h : t.IsLine l) (hlo : l.start ≤ n) (hhi : n ≤ l.stop) :
    t.inBreak n = false := by
  rcases Nat.lt_or_eq_of_le hlo with hlt | rfl
  · cases n with
    | zero => rfl
    | succ n =>
      obtain ⟨hcr, -⟩ := h.plain n (by omega) (by omega)
      simp [inBreak, hcr]
  · rcases h.begins with h₀ | hends
    · rw [h₀]
      rfl
    · refine Bool.eq_false_iff.mpr fun hin => ?_
      exact nomatch hends.symm.trans (not_breakEnds_of_inBreak hin)

/-- Up to the end of the next line break, an offset lies in the line or within this break. -/
theorem min_stop (h : t.IsLine l) (hlo : l.start ≤ n) (hn : n ≤ t.length)
    (hnone : ∀ e, l.start < e → e ≤ n → t.breakEnds e = false) :
    min n l.stop = if t.inBreak n then n - 1 else n := by
  have hordered := h.ordered
  by_cases hle : n ≤ l.stop
  · rw [h.not_inBreak hlo hle, Nat.min_eq_left hle]
    rfl
  · -- Behind the line there is only the place between `CR` and `LF`.
    have hlt : l.stop + 1 ≤ n := by omega
    rcases h.ended with hend | hends | hin
    · omega
    · rw [hnone (l.stop + 1) (by omega) hlt] at hends
      exact nomatch hends
    · have hbehind := breakEnds_succ_of_inBreak hin
      obtain rfl : n = l.stop + 1 := by
        refine Nat.le_antisymm (Nat.not_lt.mp fun hlt' => ?_) hlt
        rw [hnone (l.stop + 2) (by omega) hlt'] at hbehind
        exact nomatch hbehind
      rw [hin, if_pos rfl]
      omega

end IsLine

/-! ## Walking over a text -/

theorem breaksUpTo_succ (t : Text) (n : Nat) :
    t.breaksUpTo (n + 1) = if t.breakEnds (n + 1) then t.breaksUpTo n ++ [n + 1] else t.breaksUpTo n := by
  rw [breaksUpTo, List.range_succ, List.filter_append]
  split
  · rename_i hends
    rw [List.filter_cons_of_pos hends]
    rfl
  · rename_i hends
    rw [List.filter_cons_of_neg hends, List.filter_nil, List.append_nil]
    rfl

/-- Walking counts the line breaks, and measures the distance from the last of them. -/
theorem walk_eq (t : Text) (n : Nat) :
    (t.walk n).line = (t.breaksUpTo n).length ∧
      (t.walk n).column + (t.breaksUpTo n).getLastD 0 = if t.inBreak n then n - 1 else n := by
  induction n with
  | zero => exact ⟨rfl, rfl⟩
  | succ n ih =>
    obtain ⟨hline, hcolumn⟩ := ih
    rw [walk, breaksUpTo_succ]
    by_cases hends : t.breakEnds (n + 1) = true
    · have hin : ¬ t.inBreak (n + 1) = true := fun hin =>
        nomatch hends.symm.trans (not_breakEnds_of_inBreak hin)
      rw [if_pos hends, if_pos hends, if_neg hin, hline]
      simp
    · -- Within a line, and in front of `LF`, the place before is not within a line break.
      have hbefore : ¬ t.inBreak n = true := fun hin => hends (breakEnds_succ_of_inBreak hin)
      rw [if_neg hbefore] at hcolumn
      rw [if_neg hends, if_neg hends]
      by_cases hin : t.inBreak (n + 1) = true
      · rw [if_pos hin, if_pos hin]
        exact ⟨hline, hcolumn⟩
      · rw [if_neg hin, if_neg hin]
        refine ⟨hline, ?_⟩
        simp only
        omega

/-! ## The lines of a text -/

theorem getElem?_of_drop {c : Char} {cs : Text} (h : t.drop n = c :: cs) : t[n]? = some c := by
  rw [← List.head?_drop, h, List.head?_cons]

theorem drop_succ_of_drop {c : Char} {cs : Text} (h : t.drop n = c :: cs) : t.drop (n + 1) = cs := by
  rw [← List.drop_drop, h, List.drop_one, List.tail_cons]

/-- Behind a `CR` or a `LF` that no other one belongs to, a line break ends. -/
theorem breakEnds_of_drop {c : Char} {cs : Text} (h : t.drop n = c :: cs)
    (hpair : ∀ r, c = '\r' → cs = '\n' :: r → False) (hc : c = '\r' ∨ c = '\n') :
    t.breakEnds (n + 1) = true := by
  rw [breakEnds_succ_iff, getElem?_of_drop h]
  refine hc.symm.imp (congrArg some) fun hcr => ⟨congrArg some hcr, fun hlf => ?_⟩
  rw [← List.head?_drop, drop_succ_of_drop h] at hlf
  obtain ⟨r, hr⟩ := List.head?_eq_some_iff.mp hlf
  exact hpair r hcr hr

theorem not_breakEnds_of_drop {c : Char} {cs : Text} (h : t.drop n = c :: cs)
    (hc : ¬ (c = '\r' ∨ c = '\n')) : t.breakEnds (n + 1) = false := by
  obtain ⟨hcr, hlf⟩ := not_or.mp hc
  simp [breakEnds, getElem?_of_drop h, hcr, hlf]

theorem isLine_of_mem_linesFrom {start : Nat} {rest : Text} (hdrop : t.drop n = rest)
    (hn : n ≤ t.length) (hstart : start ≤ n) (hbegins : start = 0 ∨ t.breakEnds start = true)
    (hplain : ∀ i, start ≤ i → i < n → t[i]? ≠ some '\r' ∧ t[i]? ≠ some '\n')
    (hl : l ∈ linesFrom start n rest) : t.IsLine l := by
  fun_induction linesFrom start n rest with
  | case1 start n =>
    obtain rfl := List.mem_singleton.mp hl
    exact ⟨hstart, hn, hbegins, hplain, .inl (Nat.le_antisymm hn (List.drop_eq_nil_iff.mp hdrop))⟩
  | case2 start n cs ih =>
    have hcr := getElem?_of_drop hdrop
    have hdrop₁ := drop_succ_of_drop hdrop
    have hlf := getElem?_of_drop hdrop₁
    rcases List.mem_cons.mp hl with rfl | hl
    · exact ⟨hstart, hn, hbegins, hplain, .inr (.inr (inBreak_succ_iff.mpr ⟨hcr, hlf⟩))⟩
    · have hlen : n + 1 < t.length := (List.getElem?_eq_some_iff.mp hlf).1
      exact ih (drop_succ_of_drop hdrop₁) hlen (Nat.le_refl _)
        (.inr (breakEnds_succ_iff.mpr (.inl hlf))) (fun i hlo hhi => absurd hhi (Nat.not_lt.mpr hlo)) hl
  | case3 start n c cs hpair hc ih =>
    have hends := breakEnds_of_drop hdrop hpair hc
    rcases List.mem_cons.mp hl with rfl | hl
    · exact ⟨hstart, hn, hbegins, hplain, .inr (.inl hends)⟩
    · have hlen : n < t.length := (List.getElem?_eq_some_iff.mp (getElem?_of_drop hdrop)).1
      exact ih (drop_succ_of_drop hdrop) hlen (Nat.le_refl _) (.inr hends)
        (fun i hlo hhi => absurd hhi (Nat.not_lt.mpr hlo)) hl
  | case4 start n c cs hpair hc ih =>
    have hget := getElem?_of_drop hdrop
    have hlen : n < t.length := (List.getElem?_eq_some_iff.mp hget).1
    refine ih (drop_succ_of_drop hdrop) hlen (Nat.le_succ_of_le hstart) hbegins (fun i hlo hhi => ?_) hl
    rcases Nat.lt_succ_iff_lt_or_eq.mp hhi with hlt | rfl
    · exact hplain i hlo hlt
    · rw [hget]
      simpa using hc

theorem isLine_of_mem_lines (hl : l ∈ t.lines) : t.IsLine l :=
  isLine_of_mem_linesFrom (n := 0) rfl (Nat.zero_le _) (Nat.le_refl 0) (.inl rfl)
    (fun _ _ h => absurd h (Nat.not_lt_zero _)) hl

theorem map_start_linesFrom {start : Nat} {rest : Text} (hdrop : t.drop n = rest) :
    (linesFrom start n rest).map (·.start) =
      start :: (List.range' (n + 1) rest.length).filter t.breakEnds := by
  fun_induction linesFrom start n rest with
  | case1 start n => rfl
  | case2 start n cs ih =>
    have hcr := getElem?_of_drop hdrop
    have hdrop₁ := drop_succ_of_drop hdrop
    have hlf := getElem?_of_drop hdrop₁
    have hin : t.inBreak (n + 1) = true := inBreak_succ_iff.mpr ⟨hcr, hlf⟩
    have hends : t.breakEnds (n + 2) = true := breakEnds_succ_iff.mpr (.inl hlf)
    rw [List.map_cons, ih (drop_succ_of_drop hdrop₁), List.length_cons, List.length_cons, List.range'_succ,
      List.range'_succ, List.filter_cons_of_neg (by simp [not_breakEnds_of_inBreak hin]),
      List.filter_cons_of_pos hends]
  | case3 start n c cs hpair hc ih =>
    rw [List.map_cons, ih (drop_succ_of_drop hdrop), List.length_cons, List.range'_succ,
      List.filter_cons_of_pos (breakEnds_of_drop hdrop hpair hc)]
  | case4 start n c cs hpair hc ih =>
    rw [ih (drop_succ_of_drop hdrop), List.length_cons, List.range'_succ,
      List.filter_cons_of_neg (by simp [not_breakEnds_of_drop hdrop hc])]

/-- The lines of a text start at its front, and where line breaks end. -/
theorem map_start_lines (t : Text) : t.lines.map (·.start) = 0 :: t.breaksUpTo t.length := by
  rw [lines, map_start_linesFrom (n := 0) List.drop_zero, breaksUpTo, List.range_eq_range',
    List.range'_succ, List.filter_cons_of_neg (by simp [breakEnds])]

theorem length_lines (t : Text) : t.lines.length = (t.breaksUpTo t.length).length + 1 := by
  rw [← List.length_map (·.start), map_start_lines, List.length_cons]

/-! ## The line of an offset -/

theorem le_of_mem_breaksUpTo {e : Nat} (h : e ∈ 0 :: t.breaksUpTo n) : e ≤ n := by
  rcases List.mem_cons.mp h with rfl | h
  · exact Nat.zero_le n
  · exact Nat.le_of_lt_succ (List.mem_range.mp (List.mem_filter.mp h).1)

theorem pairwise_breaksUpTo (t : Text) (n : Nat) : (0 :: t.breaksUpTo n).Pairwise (· < ·) := by
  refine List.Pairwise.cons (fun e he => ?_) (List.pairwise_lt_range.filter _)
  refine Nat.pos_of_ne_zero fun h => ?_
  rw [h] at he
  exact nomatch (List.mem_filter.mp he).2

/-- The lines that start up to an offset come first. -/
theorem exists_map_start_eq (hn : n ≤ t.length) :
    ∃ behind, t.lines.map (·.start) = (0 :: t.breaksUpTo n) ++ behind ∧ ∀ e ∈ behind, n < e := by
  refine ⟨(List.range' (n + 1) (t.length - n)).filter t.breakEnds, ?_, fun e he => ?_⟩
  · have hrange : List.range (t.length + 1) = List.range (n + 1) ++ List.range' (n + 1) (t.length - n) := by
      rw [List.range_eq_range', List.range_eq_range',
        show t.length + 1 = n + 1 + (t.length - n) by omega, ← List.range'_append_1, Nat.zero_add]
    rw [map_start_lines, breaksUpTo, hrange, List.filter_append, List.cons_append]
    rfl
  · have := List.mem_range'_1.mp (List.mem_filter.mp he).1
    omega

/-- The number of lines that start up to an offset. -/
theorem countP_start_lines (hn : n ≤ t.length) :
    t.lines.countP (fun l => l.start ≤ n) = (t.breaksUpTo n).length + 1 := by
  obtain ⟨behind, hstarts, hbehind⟩ := exists_map_start_eq hn
  have hcount : t.lines.countP (fun l => l.start ≤ n) = (t.lines.map (·.start)).countP (· ≤ n) := by
    rw [List.countP_map]
    rfl
  rw [hcount, hstarts, List.countP_append,
    List.countP_eq_length.mpr fun e he => decide_eq_true (le_of_mem_breaksUpTo he),
    List.countP_eq_zero.mpr fun e he => by simpa using hbehind e he]
  rfl

theorem exists_cons_eq_concat {α : Type} (a : α) (xs : List α) :
    ∃ ys, a :: xs = ys ++ [xs.getLastD a] ∧ ys.length = xs.length := by
  rcases List.eq_nil_or_concat xs with rfl | ⟨zs, z, rfl⟩
  · exact ⟨[], rfl, rfl⟩
  · exact ⟨a :: zs, by simp, by simp⟩

/-- The line that an offset belongs to is the last one that starts up to the offset. Its number
is the number of line breaks up to the offset. -/
theorem exists_line (hn : n ≤ t.length) :
    ∃ l, t.lines[(t.breaksUpTo n).length]? = some l ∧ t.IsLine l ∧
      l.start = (t.breaksUpTo n).getLastD 0 ∧ l.start ≤ n ∧
      ∀ e, l.start < e → e ≤ n → t.breakEnds e = false := by
  obtain ⟨behind, hstarts, -⟩ := exists_map_start_eq hn
  obtain ⟨before, hlast, hlen⟩ := exists_cons_eq_concat 0 (t.breaksUpTo n)
  have hsorted := pairwise_breaksUpTo t n
  rw [hlast, List.pairwise_append] at hsorted
  have hget : (t.lines.map (·.start))[(t.breaksUpTo n).length]? = some ((t.breaksUpTo n).getLastD 0) := by
    rw [hstarts, hlast, ← hlen, List.append_assoc, List.getElem?_append_right (Nat.le_refl _), Nat.sub_self]
    rfl
  rw [List.getElem?_map, Option.map_eq_some_iff] at hget
  obtain ⟨l, hl, hstart⟩ := hget
  refine ⟨l, hl, isLine_of_mem_lines (List.mem_of_getElem? hl), hstart, ?_, fun e hlo hhi => ?_⟩
  · rw [hstart]
    refine le_of_mem_breaksUpTo (t := t) ?_
    rw [hlast]
    exact List.mem_append_right before (List.mem_singleton_self _)
  · refine Bool.eq_false_iff.mpr fun hends => ?_
    have he : e ∈ 0 :: t.breaksUpTo n :=
      List.mem_cons_of_mem 0 (List.mem_filter.mpr ⟨List.mem_range.mpr (Nat.lt_succ_of_le hhi), hends⟩)
    rw [hlast] at he
    rw [hstart] at hlo
    rcases List.mem_append.mp he with he | he
    · exact Nat.lt_asymm hlo (hsorted.2.2 e he _ (List.mem_singleton_self _))
    · exact Nat.ne_of_gt hlo (List.mem_singleton.mp he)

theorem nodup_starts_lines (t : Text) : (t.lines.map (·.start)).Nodup := by
  rw [map_start_lines]
  exact (pairwise_breaksUpTo t t.length).imp Nat.ne_of_lt

/-- The number of a line is the number of line breaks up to each of its places. -/
theorem length_breaksUpTo_of_line {k : Nat} (hl : t.lines[k]? = some l) (hlo : l.start ≤ n)
    (hhi : n ≤ l.stop) : (t.breaksUpTo n).length = k := by
  have hline := isLine_of_mem_lines (List.mem_of_getElem? hl)
  obtain ⟨m, hm, hmline, -, hle, hnone⟩ := exists_line (Nat.le_trans hhi hline.within)
  -- Two lines that start up to the place, with no line break behind their starts.
  have hstart : m.start = l.start := by
    refine Nat.le_antisymm (Nat.not_lt.mp fun hlt => ?_) (Nat.not_lt.mp fun hlt => ?_)
    · rcases hmline.begins with h | h
      · omega
      · exact nomatch h.symm.trans (hline.not_breakEnds hlt (Nat.le_trans hle hhi))
    · rcases hline.begins with h | h
      · omega
      · exact nomatch h.symm.trans (hnone l.start hlt hlo)
  have hlen : (t.breaksUpTo n).length < (t.lines.map (·.start)).length := by
    rw [List.length_map]
    exact (List.getElem?_eq_some_iff.mp hm).1
  refine (List.getElem?_inj hlen (nodup_starts_lines t)).mp ?_
  rw [List.getElem?_map, List.getElem?_map, hm, hl, Option.map_some, Option.map_some, hstart]

end Worksheet.Text
