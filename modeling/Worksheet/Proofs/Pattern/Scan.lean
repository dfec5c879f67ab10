import Worksheet.Proofs.Pattern.Weave

/-!
# The way of a scan

`Pattern.scan` looks for the next reading where the last one ended, so what it finds at
a place depends on whether it comes to that place at all (`Pattern.Meets`).

* `meets_or_straddles`: it does, or one of its readings lies across the place;
* `mem_scanFrom_of_meets`: then it finds what is read there
  (`exists_start_or_straddles` puts both together);
* `meets_of_mem`: it comes to the place of a reading, also when something else is put
  there that no earlier place can tell apart;
* `Apart.mem_scan_iff`: where readings stand apart, none of them keeps the search from
  another one, so it finds them all.
-/

namespace Worksheet.Pattern

variable {p : Pattern} {n : Nat} {m : Match}

/-- What is found starts where it is read. -/
theorem matchAt_of_mem_scanFrom {skip : Nat} {t : Text} (h : m ∈ p.scanFrom skip n t) :
    ∃ i, skip ≤ i ∧ m.start = n + i ∧ p.matchAt m.start (t.drop i) = some m := by
  induction t generalizing skip n with
  | nil => exact absurd h (by rw [scanFrom]; exact List.not_mem_nil)
  | cons c cs ih =>
    have later {k : Nat} (h : m ∈ p.scanFrom k (n + 1) cs) :
        ∃ i, k + 1 ≤ i ∧ m.start = n + i ∧ p.matchAt m.start ((c :: cs).drop i) = some m := by
      obtain ⟨i, hi, hs, hm⟩ := ih h
      exact ⟨i + 1, Nat.succ_le_succ hi, by omega, hm⟩
    cases skip with
    | succ skip => exact later h
    | zero =>
      have anyway {k : Nat} (h : m ∈ p.scanFrom k (n + 1) cs) :
          ∃ i, 0 ≤ i ∧ m.start = n + i ∧ p.matchAt m.start ((c :: cs).drop i) = some m := by
        obtain ⟨i, -, h⟩ := later h
        exact ⟨i, Nat.zero_le i, h⟩
      rw [scanFrom] at h
      split at h
      · exact anyway h
      · rename_i m' hm
        split at h
        · exact anyway h
        · rcases List.mem_cons.mp h with rfl | h
          · obtain ⟨hs, -⟩ := matchAt_eq_some hm
            exact ⟨0, Nat.le_refl 0, hs, by rwa [hs]⟩
          · exact anyway h

/-- Nothing is found where the search starts later. -/
theorem le_start_of_mem_scanFrom {skip : Nat} {t : Text} (h : m ∈ p.scanFrom skip n t) :
    n + skip ≤ m.start := by
  obtain ⟨i, hi, hs, -⟩ := matchAt_of_mem_scanFrom h
  omega

/-- Each reading that is found starts where the one before it ends, or behind. -/
theorem pairwise_scanFrom (p : Pattern) (skip n : Nat) (t : Text) :
    (p.scanFrom skip n t).Pairwise fun a b => a.stop ≤ b.start := by
  induction t generalizing skip n with
  | nil =>
    rw [scanFrom]
    exact List.Pairwise.nil
  | cons c cs ih =>
    cases skip with
    | succ skip => exact ih skip (n + 1)
    | zero =>
      rw [scanFrom]
      split
      · exact ih 0 (n + 1)
      · rename_i m hm
        split
        · exact ih 0 (n + 1)
        · refine List.Pairwise.cons (fun b hb => ?_) (ih _ (n + 1))
          obtain ⟨hstart, -⟩ := matchAt_eq_some hm
          have := le_start_of_mem_scanFrom hb
          rw [Match.stop, hstart]
          omega

/-- What is read at the front of a text is found, and the search goes on behind it. -/
theorem scanFrom_eq_cons {t : Text} (h : p.matchAt n t = some m) (hne : m.text ≠ []) :
    p.scanFrom 0 n t = m :: p.scanFrom 0 m.stop (t.drop m.text.length) := by
  obtain ⟨hstart, hpre, -⟩ := matchAt_eq_some h
  cases t with
  | nil => exact absurd (List.prefix_nil.mp hpre) hne
  | cons c cs =>
    obtain ⟨d, u, hu⟩ := List.exists_cons_of_ne_nil hne
    have hlen := hpre.length_le
    rw [hu, List.length_cons, List.length_cons] at hlen
    rw [scanFrom, h]
    simp only [if_neg hne]
    rw [Match.stop, hstart, hu, List.length_cons, Nat.add_sub_cancel, List.drop_succ_cons,
      scanFrom_skip p (Nat.le_of_succ_le_succ hlen), Nat.add_assoc, Nat.add_comm 1]

/-- The search goes on at the next character where nothing is read, or only the empty
text. -/
theorem scanFrom_cons {c : Char} {t : Text}
    (h : ∀ m, p.matchAt n (c :: t) = some m → m.text = []) :
    p.scanFrom 0 n (c :: t) = p.scanFrom 0 (n + 1) t := by
  rw [scanFrom]
  split
  · rfl
  · rename_i m hm
    rw [if_pos (h m hm)]

/-- The search in a text comes to the place between two parts of it. -/
def Meets (p : Pattern) (n : Nat) (x t : Text) : Prop :=
  ∃ ms, p.scanFrom 0 n (x ++ t) = ms ++ p.scanFrom 0 (n + x.length) t

theorem meets_nil (p : Pattern) (n : Nat) (t : Text) : p.Meets n [] t := ⟨[], rfl⟩

/-- If the search comes to a place later on, it does so from the start. -/
theorem Meets.cons {c : Char} {x t : Text} (h : p.Meets (n + 1) x t)
    (hm : ∀ m, p.matchAt n (c :: (x ++ t)) = some m → m.text = []) : p.Meets n (c :: x) t := by
  obtain ⟨ms, hms⟩ := h
  refine ⟨ms, ?_⟩
  rw [List.cons_append, scanFrom_cons hm, hms, List.length_cons, Nat.add_assoc, Nat.add_comm 1]

theorem Meets.reading {x t : Text} (hm : p.matchAt n (x ++ t) = some m) (hne : m.text ≠ [])
    (hlen : m.text.length ≤ x.length) (h : p.Meets m.stop (x.drop m.text.length) t) :
    p.Meets n x t := by
  obtain ⟨ms, hms⟩ := h
  obtain ⟨hstart, -⟩ := matchAt_eq_some hm
  have hstop : m.stop + (x.drop m.text.length).length = n + x.length := by
    rw [Match.stop, hstart, List.length_drop]
    omega
  refine ⟨m :: ms, ?_⟩
  rw [scanFrom_eq_cons hm hne, List.drop_append_of_le_length hlen, hms, hstop, List.cons_append]

/-- What is read at a place that the search comes to is found. -/
theorem mem_scanFrom_of_meets {x t : Text} (h : p.Meets n x t)
    (hm : p.matchAt (n + x.length) t = some m) (hne : m.text ≠ []) : m ∈ p.scanFrom 0 n (x ++ t) := by
  obtain ⟨ms, hms⟩ := h
  rw [hms, scanFrom_eq_cons hm hne]
  exact List.mem_append_right ms List.mem_cons_self

/-- The search comes to a place, or one of the readings that it finds lies across this
place. -/
theorem meets_or_straddles (p : Pattern) (n : Nat) (x t : Text) :
    p.Meets n x t ∨ ∃ m ∈ p.scanFrom 0 n (x ++ t), m.start < n + x.length ∧ n + x.length < m.stop := by
  -- By the length, as a whole reading is taken off at once.
  induction hk : x.length using Nat.strongRecOn generalizing n x with
  | ind k ih =>
    cases x with
    | nil => exact .inl (meets_nil p n t)
    | cons c x =>
      by_cases hm : ∀ m, p.matchAt n (c :: (x ++ t)) = some m → m.text = []
      · rw [List.cons_append, scanFrom_cons hm]
        rw [List.length_cons] at hk
        refine (ih x.length (by omega) (n + 1) x rfl).imp (Meets.cons · hm) ?_
        rintro ⟨m, h, hs⟩
        exact ⟨m, h, by omega⟩
      · obtain ⟨m, hm, hne⟩ : ∃ m, p.matchAt n (c :: x ++ t) = some m ∧ m.text ≠ [] := by
          simpa using hm
        obtain ⟨hstart, -⟩ := matchAt_eq_some hm
        rw [scanFrom_eq_cons hm hne]
        have hpos := List.length_pos_iff.mpr hne
        rw [List.length_cons] at hk
        by_cases hlen : m.text.length ≤ (c :: x).length
        · have hstop : m.stop + ((c :: x).drop m.text.length).length = n + k := by
            rw [Match.stop, hstart, List.length_drop, List.length_cons]
            rw [List.length_cons] at hlen
            omega
          rw [List.drop_append_of_le_length hlen]
          refine (ih _ ?_ m.stop ((c :: x).drop m.text.length) rfl).imp (Meets.reading hm hne hlen) ?_
          · rw [List.length_drop, List.length_cons]
            omega
          · rintro ⟨m', h, hs⟩
            exact ⟨m', List.mem_cons_of_mem m h, by omega⟩
        · refine .inr ⟨m, List.mem_cons_self, by omega, ?_⟩
          rw [List.length_cons] at hlen
          rw [Match.stop]
          omega

/-- Where a text has a reading, one is found, or one that is found lies across the place. -/
theorem exists_start_or_straddles (hne : ∀ u gs, p.Reads u gs → u ≠ []) {t u : Text} {gs : List Text}
    (hu : p.Reads u gs) (hpre : u <+: t.drop n) :
    (∃ m ∈ p.scan t, m.start = n) ∨ ∃ m ∈ p.scan t, m.start < n ∧ n < m.stop := by
  have hlen := hpre.length_le
  have hpos := List.length_pos_iff.mpr (hne u gs hu)
  rw [List.length_drop] at hlen
  have hn : 0 + (t.take n).length = n := by
    rw [List.length_take]
    omega
  have hway := meets_or_straddles p 0 (t.take n) (t.drop n)
  rw [List.take_append_drop, hn] at hway
  refine hway.imp_left fun hmeets => ?_
  cases hm : p.matchAt n (t.drop n) with
  | none => exact absurd hpre (matchAt_eq_none_iff.mp hm u gs hu)
  | some m =>
    obtain ⟨hstart, -, hreads⟩ := matchAt_eq_some hm
    have hmem := mem_scanFrom_of_meets hmeets (by rwa [hn]) (hne _ _ hreads)
    rw [List.take_append_drop] at hmem
    exact ⟨m, hmem, hstart⟩

/-- The search comes to the place of a reading that it finds. It also does so with
another text there, if no place in front of it can tell the two apart: what is read in
front of the place is the same, and where nothing is read, this is so for both. -/
theorem meets_of_mem {x t t' : Text} (h : m ∈ p.scanFrom 0 n (x ++ t)) (hm : m.start = n + x.length)
    (hread : ∀ y, y ≠ [] → y <:+ x → ∀ k m, p.matchAt k (y ++ t) = some m →
      m.text.length ≤ y.length → p.matchAt k (y ++ t') = some m)
    (hnone : ∀ y, y ≠ [] → y <:+ x → ∀ k, p.matchAt k (y ++ t) = none →
      p.matchAt k (y ++ t') = none) : p.Meets n x t' := by
  induction hk : x.length using Nat.strongRecOn generalizing n x with
  | ind k ih =>
    cases x with
    | nil => exact meets_nil p n t'
    | cons c x =>
      have hcons : c :: x ≠ [] := List.cons_ne_nil c x
      have hx : x <:+ c :: x := List.suffix_cons c x
      have hkx : x.length < k := by
        rw [← hk]
        exact Nat.lt_succ_self _
      cases hat : p.matchAt n (c :: x ++ t) with
      | none =>
        have hnone' : ∀ m', p.matchAt n (c :: (x ++ t)) = some m' → m'.text = [] :=
          fun m' h' => nomatch h'.symm.trans hat
        rw [List.cons_append, scanFrom_cons hnone'] at h
        refine (ih x.length hkx h (by rw [hm, List.length_cons]; omega)
          (fun y hy hyx => hread y hy (hyx.trans hx)) (fun y hy hyx => hnone y hy (hyx.trans hx)) rfl).cons
          fun m' h' => nomatch h'.symm.trans (hnone _ hcons List.suffix_rfl n hat)
      | some m' =>
        obtain ⟨hstart, -⟩ := matchAt_eq_some hat
        by_cases hne : m'.text = []
        · have hempty : ∀ m'', p.matchAt n (c :: (x ++ t)) = some m'' → m''.text = [] := fun m'' h' => by
            obtain rfl := Option.some.inj (h'.symm.trans hat)
            exact hne
          have hat' := hread _ hcons List.suffix_rfl n m' hat (by rw [hne]; exact Nat.zero_le _)
          rw [List.cons_append, scanFrom_cons hempty] at h
          refine (ih x.length hkx h (by rw [hm, List.length_cons]; omega)
            (fun y hy hyx => hread y hy (hyx.trans hx)) (fun y hy hyx => hnone y hy (hyx.trans hx)) rfl).cons
            fun m'' h' => ?_
          obtain rfl := Option.some.inj (h'.symm.trans hat')
          exact hne
        · have hpos := List.length_pos_iff.mpr hne
          rw [scanFrom_eq_cons hat hne] at h
          -- The reading at the place is found later, so the first one ends in front of it.
          have hrest := (List.mem_cons.mp h).resolve_left fun e => by
            rw [e, hstart, List.length_cons] at hm
            omega
          have hlen : m'.text.length ≤ (c :: x).length := by
            have := le_start_of_mem_scanFrom hrest
            rw [Match.stop, hstart, hm] at this
            omega
          rw [List.drop_append_of_le_length hlen] at hrest
          have hsuffix := List.drop_suffix m'.text.length (c :: x)
          refine Meets.reading (hread _ hcons List.suffix_rfl n m' hat hlen) hne hlen ?_
          refine ih _ ?_ hrest ?_ (fun y hy hyx => hread y hy (hyx.trans hsuffix))
            (fun y hy hyx => hnone y hy (hyx.trans hsuffix)) rfl
          · rw [List.length_drop]
            omega
          · rw [hm, Match.stop, hstart, List.length_drop]
            omega

/-! ## Readings that stand apart -/

/-- Of two readings in a text that stand apart, the second one starts where the first one
ends, or behind; two readings at one place are the same. -/
theorem Apart.eq_or_le (hp : p.Apart) {t u v : Text} {gs hs : List Text} {i j : Nat} (hu : p.Reads u gs)
    (hv : p.Reads v hs) (hui : u <+: t.drop i) (hvj : v <+: t.drop j) (hij : i ≤ j) :
    (i = j ∧ u = v ∧ gs = hs) ∨ i + u.length ≤ j := by
  obtain ⟨k, rfl⟩ := Nat.exists_eq_add_of_le hij
  by_cases hk : k = 0
  · subst hk
    exact .inl ⟨rfl, hp.single hu hv hui hvj⟩
  · refine .inr (Nat.not_lt.mp fun hlt => ?_)
    -- Otherwise the second one starts within the first one.
    have hlen : k < u.length := by omega
    have hrest : u.drop k <+: t.drop (i + k) := by
      obtain ⟨z, hz⟩ := hui
      rw [← List.drop_drop, ← hz, List.drop_append_of_le_length (Nat.le_of_lt hlen)]
      exact List.prefix_append _ z
    have htake : u.take k ≠ [] := List.length_pos_iff.mp (by rw [List.length_take]; omega)
    have hdrop : u.drop k ≠ [] := List.length_pos_iff.mp (by rw [List.length_drop]; omega)
    rw [← List.take_append_drop k u] at hu
    exact hp.disjoint hu htake hdrop hv (List.prefix_or_prefix_of_prefix hrest hvj)

/-- A search finds every reading in a text. -/
theorem Apart.mem_scan_iff (hp : p.Apart) {t : Text} :
    m ∈ p.scan t ↔ m.text <+: t.drop m.start ∧ p.Reads m.text m.groups := by
  refine ⟨mem_scan, fun ⟨hpre, hreads⟩ => ?_⟩
  rcases exists_start_or_straddles (fun _ _ h => hp.nonempty h) hreads hpre with
    ⟨m', hm', hstart⟩ | ⟨m', hm', hbefore, hbehind⟩
  · obtain ⟨hpre', hreads'⟩ := mem_scan hm'
    rw [hstart] at hpre'
    obtain ⟨htext, hgroups⟩ := hp.single hreads' hreads hpre' hpre
    obtain rfl : m' = m := by
      cases m
      cases m'
      simp only at hstart htext hgroups
      rw [hstart, htext, hgroups]
    exact hm'
  · obtain ⟨hpre', hreads'⟩ := mem_scan hm'
    rw [Match.stop] at hbehind
    rcases hp.eq_or_le hreads' hreads hpre' hpre (Nat.le_of_lt hbefore) with ⟨hsame, -⟩ | hle <;> omega

/-- What a search finds comes in the order of its places. -/
theorem Apart.pairwise_scan (hp : p.Apart) (t : Text) :
    (p.scan t).Pairwise fun a b => a.start < b.start := by
  obtain ⟨w, qs, rfl, hw, hq⟩ := exists_weave hp t
  rw [scan_weave hp hw hq]
  refine (pairwise_woven 0 w qs).imp_of_mem fun ha _ hab => ?_
  obtain ⟨q, hmem, htext, -⟩ := mem_of_mem_woven ha
  have hpos := List.length_pos_iff.mpr (hp.nonempty (hq q hmem).reads)
  rw [Match.stop, htext] at hab
  omega

end Worksheet.Pattern
