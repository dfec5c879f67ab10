import Worksheet.Proofs.Pattern.Weave

/-!
# Seams

Where two texts are put together, a reading can be lost, or a new one can appear.
Two conditions on a text rule this out, whatever the text is put behind and
whatever comes after it: no reading reaches into it (`Pattern.Sealed`), and none
starts in it (`Pattern.Barren`).

* `scanFrom_clear`: what is read before a sealed text is read there;
* `scanFrom_barren`: nothing is read in a barren one;
* `exists_scanFrom_append`: what is read in a text with another one behind it;
* `Apart.sealed_of_reads`, `Apart.barren_of_reads`: readings that stand apart are
  sealed themselves, and their ends are barren.
-/

namespace Worksheet.Pattern

/-- No reading that starts before a text ends within it. -/
def Clear (p : Pattern) (t : Text) : Prop :=
  ∀ ⦃x y gs⦄, p.Reads (x ++ y) gs → x ≠ [] → y ≠ [] → ¬ y <+: t

/-- No reading that starts before a text reaches into it, whatever comes behind
it. -/
def Sealed (p : Pattern) (h : Text) : Prop := ∀ w, p.Clear (h ++ w)

/-- No reading starts in a text, whatever comes behind it. -/
def Barren (p : Pattern) (h : Text) : Prop :=
  ∀ ⦃v : Text⦄, v <:+ h → v ≠ [] → ∀ ⦃u gs⦄, p.Reads u gs → ∀ w, ¬ u <+: v ++ w

variable {p : Pattern}

/-! ## Sealed texts and barren texts -/

theorem Sealed.append {h : Text} (hh : p.Sealed h) (t : Text) : p.Sealed (h ++ t) := by
  intro w
  rw [List.append_assoc]
  exact hh (t ++ w)

theorem barren_nil : p.Barren [] := fun _ hv hne => absurd (List.suffix_nil.mp hv) hne

theorem Barren.suffix {h v : Text} (hh : p.Barren h) (hv : v <:+ h) : p.Barren v :=
  fun _ hw => hh (hw.trans hv)

theorem Barren.append {h t : Text} (hh : p.Barren h) (ht : p.Barren t) : p.Barren (h ++ t) := by
  intro v hv hne u gs hu w
  rcases List.suffix_or_suffix_of_suffix hv (List.suffix_append h t) with hs | ⟨x, rfl⟩
  · exact ht hs hne hu w
  · by_cases hx : x = []
    · subst hx
      exact ht List.suffix_rfl hne hu w
    · rw [List.append_assoc]
      exact hh (List.suffix_append_self_iff.mp hv) hx hu (t ++ w)

/-- A reading reaches into no other one. -/
theorem Apart.sealed_of_reads (hp : p.Apart) {u : Text} {gs : List Text} (hu : p.Reads u gs) :
    p.Sealed u := fun w _ _ _ hxy hx hy hpre =>
  hp.disjoint hxy hx hy hu (List.prefix_or_prefix_of_prefix hpre (List.prefix_append u w))

/-- No reading starts behind the front of another one. -/
theorem Apart.barren_of_reads (hp : p.Apart) {x y : Text} {gs : List Text} (h : p.Reads (x ++ y) gs)
    (hx : x ≠ []) : p.Barren y := by
  rintro v ⟨z, rfl⟩ hv u hs hu w hpre
  rw [← List.append_assoc] at h
  exact hp.disjoint h (by simp [hx]) hv hu
    (List.prefix_or_prefix_of_prefix (List.prefix_append v w) hpre)

/-! ## Scanning -/

/-- Nothing is read in a barren text. -/
theorem scanFrom_barren {h : Text} (hh : p.Barren h) (n : Nat) (t : Text) :
    p.scanFrom 0 n (h ++ t) = p.scanFrom 0 (n + h.length) t := by
  induction h generalizing n with
  | nil => rfl
  | cons c h ih =>
    have hm : p.matchAt n (c :: (h ++ t)) = none := matchAt_eq_none_iff.mpr fun u gs hu =>
      hh List.suffix_rfl (List.cons_ne_nil c h) hu t
    rw [List.cons_append, scanFrom, hm]
    simp only
    rw [ih (hh.suffix (List.suffix_cons c h)), List.length_cons, Nat.add_assoc, Nat.add_comm 1]

/-- A reading at the front of a text, or none. -/
theorem reads_or_matchAt_eq_none (p : Pattern) (t : Text) :
    (∃ u gs z, p.Reads u gs ∧ t = u ++ z) ∨ ∀ n, p.matchAt n t = none := by
  by_cases h : ∃ u gs, p.Reads u gs ∧ u <+: t
  · obtain ⟨u, gs, hu, z, rfl⟩ := h
    exact .inl ⟨u, gs, z, hu, rfl⟩
  · exact .inr fun n => matchAt_eq_none_iff.mpr fun u gs hu hpre => h ⟨u, gs, hu, hpre⟩

theorem scanFrom_cons_of_none {n : Nat} {c : Char} {t : Text} (h : p.matchAt n (c :: t) = none) :
    p.scanFrom 0 n (c :: t) = p.scanFrom 0 (n + 1) t := by
  rw [scanFrom, h]

/-- What is read in front of a text that no reading reaches into is read there
without it, and the search goes on at its front. -/
theorem scanFrom_clear (hp : p.Apart) {t : Text} (ht : p.Clear t) (n : Nat) (x : Text) :
    p.scanFrom 0 n (x ++ t) = p.scanFrom 0 n x ++ p.scanFrom 0 (n + x.length) t := by
  -- By the length, as a whole reading is taken off at once.
  induction hk : x.length using Nat.strongRecOn generalizing n x with
  | ind k ih =>
    cases x with
    | nil =>
      obtain rfl := hk
      rfl
    | cons c x =>
      rcases reads_or_matchAt_eq_none p (c :: x) with ⟨u, gs, z, hu, hx⟩ | hnone
      · have hlt : z.length < k := by
          have := List.length_pos_iff.mpr (hp.nonempty hu)
          rw [← hk, hx, List.length_append]
          omega
        have hlen : n + k = n + u.length + z.length := by
          rw [← hk, hx, List.length_append, Nat.add_assoc]
        rw [hx, List.append_assoc, scanFrom_reading hp hu, scanFrom_reading hp hu,
          ih z.length hlt (n + u.length) z rfl, hlen, List.cons_append]
      · have hnone' : p.matchAt n (c :: (x ++ t)) = none := by
          refine matchAt_eq_none_iff.mpr fun u gs hu hpre => ?_
          rcases List.prefix_or_prefix_of_prefix hpre (List.prefix_append (c :: x) t) with h | ⟨y, rfl⟩
          · exact matchAt_eq_none_iff.mp (hnone 0) u gs hu h
          · by_cases hy : y = []
            · subst hy
              rw [List.append_nil] at hu
              exact matchAt_eq_none_iff.mp (hnone 0) _ gs hu List.prefix_rfl
            · exact ht hu (List.cons_ne_nil c x) hy ((List.prefix_append_right_inj (c :: x)).mp hpre)
        have hlen : n + 1 + x.length = n + k := by
          rw [← hk, List.length_cons]
          omega
        rw [List.cons_append, scanFrom_cons_of_none hnone', scanFrom_cons_of_none (hnone n),
          ih x.length (by rw [← hk]; exact Nat.lt_succ_self _) (n + 1) x rfl, hlen]

/-- What is read in a text with another one behind it: first what starts in the
one, then what is read in the other one by itself. -/
theorem exists_scanFrom_append (hp : p.Apart) (n : Nat) (s t : Text) :
    ∃ ms, p.scanFrom 0 n (s ++ t) = ms ++ p.scanFrom 0 (n + s.length) t ∧
      ∀ m ∈ ms, n ≤ m.start ∧ m.start < n + s.length := by
  induction hk : s.length using Nat.strongRecOn generalizing n s with
  | ind k ih =>
    cases s with
    | nil =>
      obtain rfl := hk
      exact ⟨[], rfl, nofun⟩
    | cons c s =>
      rw [List.length_cons] at hk
      rcases reads_or_matchAt_eq_none p (c :: (s ++ t)) with ⟨u, gs, z, hu, hx⟩ | hnone
      · have hpos := List.length_pos_iff.mpr (hp.nonempty hu)
        rw [List.cons_append, hx, scanFrom_reading hp hu]
        rw [← List.cons_append] at hx
        rcases List.append_eq_append_iff.mp hx with ⟨y, hy, rfl⟩ | ⟨s', hs, rfl⟩
        · -- The reading reaches into the other text, at the front of which none starts.
          have hlen : n + u.length = n + k + y.length := by
            rw [hy, List.length_append, List.length_cons, hk, Nat.add_assoc]
          refine ⟨[⟨n, u, gs⟩], ?_, List.forall_mem_singleton.mpr ⟨Nat.le_refl n, ?_⟩⟩
          · rw [hy] at hu
            rw [scanFrom_barren (hp.barren_of_reads hu (List.cons_ne_nil c s)), hlen]
            rfl
          · show n < n + k
            omega
        · have hs' : s'.length + u.length = k := by
            rw [← hk, ← List.length_cons, hs, List.length_append, Nat.add_comm]
          obtain ⟨ms, hms, hstart⟩ := ih s'.length (by omega) (n + u.length) s' rfl
          have hlen : n + u.length + s'.length = n + k := by omega
          rw [hlen] at hms hstart
          refine ⟨⟨n, u, gs⟩ :: ms, by rw [hms, List.cons_append],
            List.forall_mem_cons.mpr ⟨⟨Nat.le_refl n, ?_⟩, fun m hm => ?_⟩⟩
          · show n < n + k
            omega
          · have := hstart m hm
            omega
      · obtain ⟨ms, hms, hstart⟩ := ih s.length (by omega) (n + 1) s rfl
        have hlen : n + 1 + s.length = n + k := by omega
        rw [hlen] at hms hstart
        refine ⟨ms, ?_, fun m hm => ?_⟩
        · rw [List.cons_append, scanFrom_cons_of_none (hnone n), hms]
        · have := hstart m hm
          omega

/-- Where the readings in a text that starts at offset `n` are. -/
theorem bounds_of_mem_scanFrom (hp : p.Apart) {n : Nat} {t : Text} {m : Match}
    (h : m ∈ p.scanFrom 0 n t) : n ≤ m.start ∧ m.start < m.stop ∧ m.stop ≤ n + t.length := by
  obtain ⟨w, qs, rfl, hw, hq⟩ := exists_weave hp t
  rw [scanFrom_weave hp hw hq] at h
  have hb := bounds_of_mem_woven h
  obtain ⟨q, hmem, htext, -⟩ := mem_of_mem_woven h
  have hpos := List.length_pos_iff.mpr (hp.nonempty (hq q hmem).reads)
  rw [← htext] at hpos
  exact ⟨Nat.le_trans (Nat.le_add_right ..) hb.1, Nat.lt_add_of_pos_right hpos, hb.2⟩

/-- What the groups read does not depend on the offset at which a text starts. -/
theorem map_groups_scanFrom (hp : p.Apart) (n k : Nat) (t : Text) :
    (p.scanFrom 0 n t).map (·.groups) = (p.scanFrom 0 k t).map (·.groups) := by
  obtain ⟨w, qs, rfl, hw, hq⟩ := exists_weave hp t
  rw [scanFrom_weave hp hw hq, scanFrom_weave hp hw hq, map_groups_woven, map_groups_woven]

end Worksheet.Pattern
