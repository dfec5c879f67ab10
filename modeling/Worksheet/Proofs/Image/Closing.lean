import Worksheet.Correction
import Worksheet.Proofs.Image.Reading
import Worksheet.Proofs.Image.Span

/-!
# Where a tag closes

A tag that goes on at an offset closes with the first bracket from there on, if this is a `>`
(`Text.Closes`). `tagEnd` finds just this place (`tagEnd_eq_iff`), so the correction of a
mistyped tag that reaches beyond its finding takes away one `>`, and no other bracket
(`Typo.closes_of_fix`).

* `tagEnd_closes`: both together.
-/

namespace Worksheet

namespace Text

/-- The tag that goes on at offset `n` closes just in front of offset `e`. -/
structure Closes (t : Text) (n e : Nat) : Prop where
  behind : n < e
  bracket : t[e - 1]? = some '>'
  noOpening : '<' ∉ t.slice n (e - 1)
  noClosing : '>' ∉ t.slice n (e - 1)

variable {t : Text} {n e : Nat}

/-- The rest of the tag, and what comes behind it. -/
theorem Closes.drop_eq (h : t.Closes n e) : t.drop n = t.slice n (e - 1) ++ '>' :: t.drop e := by
  have hpos := h.behind
  obtain ⟨hlt, hbracket⟩ := List.getElem?_eq_some_iff.mp h.bracket
  have hdrop := List.drop_eq_getElem_cons hlt
  rw [hbracket, Nat.sub_add_cancel (by omega)] at hdrop
  rw [← hdrop, slice_append_drop t (by omega)]

theorem closes_of_drop_eq {x v : Text} (h : t.drop n = x ++ '>' :: v) (hopen : '<' ∉ x)
    (hclose : '>' ∉ x) : t.Closes n (n + x.length + 1) := by
  have hslice : t.slice n (n + x.length) = x := slice_of_prefix_drop ⟨'>' :: v, h.symm⟩
  refine ⟨by omega, ?_, ?_, ?_⟩
  · rw [Nat.add_sub_cancel, ← List.getElem?_drop, h, List.getElem?_append_right (Nat.le_refl _),
      Nat.sub_self, List.getElem?_cons_zero]
  · rwa [Nat.add_sub_cancel, hslice]
  · rwa [Nat.add_sub_cancel, hslice]

/-- A tag closes at one place. -/
theorem Closes.eq {e' : Nat} (h : t.Closes n e) (h' : t.Closes n e') : e = e' := by
  have hsame := h.drop_eq.symm.trans h'.drop_eq
  obtain ⟨hslice, -⟩ := append_cons_inj h.noClosing h'.noClosing hsame
  have hbehind := h.behind
  have hbehind' := h'.behind
  obtain ⟨hlt, -⟩ := List.getElem?_eq_some_iff.mp h.bracket
  obtain ⟨hlt', -⟩ := List.getElem?_eq_some_iff.mp h'.bracket
  have hlen := congrArg List.length hslice
  rw [length_slice (Nat.le_of_lt hlt), length_slice (Nat.le_of_lt hlt')] at hlen
  omega

end Text

variable {t : Text} {n : Nat}

/-- The end of a tag is the place where it closes, or else the offset at which it goes on. -/
theorem tagEnd_closes_or (h : n ≤ t.length) :
    (∃ e, t.Closes n e ∧ tagEnd t n = e) ∨ (∀ e, ¬ t.Closes n e) ∧ tagEnd t n = n := by
  rcases tagEnd_cases h with ⟨x, v, hdrop, hopen, hclose, hend⟩ | ⟨hnone, hend⟩
  · exact .inl ⟨_, Text.closes_of_drop_eq hdrop hopen hclose, hend⟩
  · exact .inr ⟨fun e he => he.noClosing (hnone _ _ he.drop_eq he.noOpening), hend⟩

theorem tagEnd_eq_iff (h : n ≤ t.length) {e : Nat} (he : n < e) : tagEnd t n = e ↔ t.Closes n e := by
  rcases tagEnd_closes_or h with ⟨e', hcloses, hend⟩ | ⟨hnone, hend⟩
  · rw [hend, Int.natCast_inj]
    exact ⟨fun heq => heq ▸ hcloses, fun hcloses' => hcloses.eq hcloses'⟩
  · exact iff_of_false (by omega) (hnone e)

theorem tagEnd_eq_self_iff (h : n ≤ t.length) : tagEnd t n = n ↔ ∀ e, ¬ t.Closes n e := by
  rcases tagEnd_closes_or h with ⟨e, hcloses, hend⟩ | ⟨hnone, hend⟩
  · have hbehind := hcloses.behind
    exact iff_of_false (by omega) fun hnone => hnone e hcloses
  · exact iff_of_true hend hnone

/-- A correction of a mistyped tag starts where its finding does. If it reaches beyond the
finding, it ends where the tag closes that goes on there. -/
theorem Typo.closes_of_fix {images : List Image} {s : Settings} {x : Diagnostic}
    (hx : x ∈ findings t images s) {c : Correction} (hc : x.fix = some c) :
    c.start = x.start ∧ (x.stop < c.stop → t.Closes x.stop c.stop) := by
  obtain ⟨m, -, -, k, -, ⟨r, hr, rfl⟩ | rfl⟩ := exists_of_mem_findings hx
  · obtain ⟨u, -, hne, hpre, hfinding, -⟩ := exists_of_typoReport hr
    have hlen := Text.le_length_of_prefix_drop hpre hne
    have hstop : r.1.stop = r.1.start + u.length := congrArg (·.stop) hfinding
    rw [hfinding] at hc
    obtain rfl := Option.some.inj hc
    refine ⟨rfl, fun hbeyond => ?_⟩
    rw [hstop] at hbeyond ⊢
    refine (tagEnd_eq_iff hlen hbeyond).mp (Int.toNat_of_nonneg ?_).symm
    have := (tagEnd_bounds hlen).1
    omega
  · exact nomatch hc

/-- From an offset of the text on, a tag ends at a place behind the offset if and only if it
closes there: the character in front of that place is a `>`, and no bracket stands between
the offset and it. It ends at the offset itself if and only if it closes nowhere.

So a correction of a mistyped tag that reaches beyond its finding removes, behind the finding,
the text up to the first `>`, this bracket with it, and no other bracket. -/
theorem tagEnd_closes (t : Text) :
    (∀ n ≤ t.length, ∀ e > n, tagEnd t n = (e : Nat) ↔
      t[e - 1]? = some '>' ∧ '<' ∉ t.slice n (e - 1) ∧ '>' ∉ t.slice n (e - 1)) ∧
    (∀ n ≤ t.length, tagEnd t n = n ↔ ∀ e > n,
      ¬ (t[e - 1]? = some '>' ∧ '<' ∉ t.slice n (e - 1) ∧ '>' ∉ t.slice n (e - 1))) ∧
    ∀ (images : List Image) (s : Settings), ∀ x ∈ Typo.findings t images s, ∀ c, x.fix = some c →
      x.stop < c.stop → ∃ u, t.slice x.stop c.stop = u ++ ['>'] ∧ '<' ∉ u ∧ '>' ∉ u ∧
        Correction.apply t c = t.take x.start ++ c.replacement ++ t.drop c.stop := by
  have hcloses (n e : Nat) (he : n < e) : t.Closes n e ↔
      t[e - 1]? = some '>' ∧ '<' ∉ t.slice n (e - 1) ∧ '>' ∉ t.slice n (e - 1) :=
    ⟨fun h => ⟨h.bracket, h.noOpening, h.noClosing⟩, fun ⟨h, hopen, hclose⟩ => ⟨he, h, hopen, hclose⟩⟩
  refine ⟨fun n hn e he => (tagEnd_eq_iff hn he).trans (hcloses n e he), fun n hn => ?_,
    fun images s x hx c hc hbeyond => ?_⟩
  · refine (tagEnd_eq_self_iff hn).trans (forall_congr' fun e => ?_)
    exact ⟨fun h he hbracket => h ((hcloses n e he).mpr hbracket),
      fun h hcl => h hcl.behind ((hcloses n e hcl.behind).mp hcl)⟩
  · obtain ⟨hstart, hclose⟩ := Typo.closes_of_fix hx hc
    refine ⟨_, ?_, (hclose hbeyond).noOpening, (hclose hbeyond).noClosing, ?_⟩
    · have hpart := Text.slice_append_drop t (Nat.le_of_lt hbeyond)
      rw [(hclose hbeyond).drop_eq, List.append_cons] at hpart
      exact List.append_cancel_right hpart
    · rw [Correction.apply, hstart]

/-- A mistyped tag that goes on behind its source. -/
def Typo.described : Text := lit "<im src=\"a_files/1.png\" alt=\"\">"

theorem tagEnd_closes_described :
    tagEnd Typo.described 23 = (31 : Nat) ∧
    (∀ e > 0, ¬ (Typo.described[e - 1]? = some '>' ∧ '<' ∉ Typo.described.slice 0 (e - 1) ∧
      '>' ∉ Typo.described.slice 0 (e - 1))) ∧
    ∃ x ∈ Typo.findings Typo.described [] {}, ∃ c, x.fix = some c ∧ x.stop < c.stop ∧
      ∃ u, Typo.described.slice x.stop c.stop = u ++ ['>'] ∧ '<' ∉ u ∧ '>' ∉ u ∧
        Correction.apply Typo.described c =
          Typo.described.take x.start ++ c.replacement ++ Typo.described.drop c.stop := by
  obtain ⟨hend, hself, hfix⟩ := tagEnd_closes Typo.described
  have hfindings : Typo.findings Typo.described [] {} =
      [Typo.typoFinding Typo.described {} (lit "a_files/1.png") 0 23] := by decide +kernel
  have hmem : Typo.typoFinding Typo.described {} (lit "a_files/1.png") 0 23 ∈
      Typo.findings Typo.described [] {} := by
    rw [hfindings]
    exact List.mem_singleton_self _
  have hbeyond : 23 < (tagEnd Typo.described (23 : Nat)).toNat := by decide +kernel
  exact ⟨(hend 23 (by decide) 31 (by decide)).mpr (by decide), (hself 0 (by decide)).mp (by decide),
    _, hmem, _, rfl, hbeyond, hfix [] {} _ hmem _ rfl hbeyond⟩

end Worksheet
