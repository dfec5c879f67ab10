import Worksheet.Proofs.Pattern.Single

/-!
# Preferred readings

Where a pattern has several readings, `Pattern.ends` lists the preferred one first.
For a pattern that goes on behind a run of characters this is the first way to end
the run behind which the rest is read:

* `exists_of_fewest`, `exists_of_oneOrMore`: no shorter run, or no longer one, has a
  reading behind it;
* `exists_of_matchAt`: what this means for what is read at a place.
-/

namespace Worksheet

/-- The places after runs of characters, in their order: those before a place come
after shorter runs, and those behind it after longer ones. -/
theorem Cursor.exists_of_run_eq {p : Char → Bool} {gs : List (Nat × Nat)} {n : Nat} {t : Text}
    {before behind : List Cursor} {k : Cursor} (h : run p gs n t = before ++ k :: behind) :
    ∃ u v, t = u ++ v ∧ (∀ c ∈ u, p c = true) ∧ k = ⟨n + u.length, v, gs⟩ ∧
      (∀ u' v', t = u' ++ v' → u'.length < u.length → ⟨n + u'.length, v', gs⟩ ∈ before) ∧
      ∀ u' v', t = u' ++ v' → (∀ c ∈ u', p c = true) → u.length < u'.length →
        ⟨n + u'.length, v', gs⟩ ∈ behind := by
  induction t generalizing n before with
  | nil =>
    rw [run] at h
    obtain ⟨rfl, h⟩ | ⟨_, -, h⟩ := List.cons_eq_append_iff.mp h
    · obtain ⟨rfl, rfl⟩ := List.cons_eq_cons.mp h
      refine ⟨[], [], rfl, List.forall_mem_nil _, rfl, fun u' v' _ hlt => absurd hlt (Nat.not_lt_zero _),
        fun u' v' hu _ hlt => ?_⟩
      rw [(List.append_eq_nil_iff.mp hu.symm).1] at hlt
      exact absurd hlt (Nat.lt_irrefl 0)
    · exact absurd h.symm (by simp)
  | cons c cs ih =>
    rw [run] at h
    obtain ⟨rfl, h⟩ | ⟨before, rfl, h⟩ := List.cons_eq_append_iff.mp h
    · obtain ⟨rfl, rfl⟩ := List.cons_eq_cons.mp h
      refine ⟨[], c :: cs, rfl, List.forall_mem_nil _, rfl, fun u' v' _ hlt => absurd hlt (Nat.not_lt_zero _),
        fun u' v' hu hp hlt => ?_⟩
      cases u' with
      | nil => exact absurd hlt (Nat.lt_irrefl 0)
      | cons d u' =>
        obtain ⟨rfl, rfl⟩ := List.cons_eq_cons.mp hu
        obtain ⟨hc, hp⟩ := List.forall_mem_cons.mp hp
        rw [if_pos hc, mem_run]
        refine ⟨u', v', rfl, hp, ?_⟩
        rw [List.length_cons, Nat.add_assoc, Nat.add_comm 1]
    · split at h
      · rename_i hc
        obtain ⟨u, v, rfl, hp, hk, hshort, hlong⟩ := ih (List.cons_eq_cons.mp h).2
        have hlen (w : Text) : n + 1 + w.length = n + (c :: w).length := by
          rw [List.length_cons, Nat.add_assoc, Nat.add_comm 1]
        refine ⟨c :: u, v, rfl, List.forall_mem_cons.mpr ⟨hc, hp⟩, by rw [hk, hlen], ?_, ?_⟩
        · intro u' v' hu hlt
          cases u' with
          | nil =>
            obtain rfl := (hu : c :: (u ++ v) = v')
            exact List.mem_cons_self
          | cons d u' =>
            obtain ⟨rfl, hu'⟩ := List.cons_eq_cons.mp hu
            rw [← hlen]
            exact List.mem_cons_of_mem _ (hshort u' v' hu' (Nat.lt_of_succ_lt_succ hlt))
        · intro u' v' hu hp' hlt
          cases u' with
          | nil => exact absurd hlt (Nat.not_lt_zero _)
          | cons d u' =>
            obtain ⟨rfl, hu'⟩ := List.cons_eq_cons.mp hu
            rw [← hlen]
            exact hlong u' v' hu' (List.forall_mem_cons.mp hp').2 (Nat.lt_of_succ_lt_succ hlt)
      · exact absurd h (by simp)

namespace Pattern

variable {a b : Pattern} {p q : Char → Bool} {k e : Cursor}

/-- Where a reading cannot end, there is none. -/
theorem not_prefix_of_ends_eq_nil (h : a.ends k = []) {u : Text} {gs : List Text} (hu : a.Reads u gs) :
    ¬ u <+: k.rest := by
  rintro ⟨v, hv⟩
  obtain ⟨e, he, -⟩ := ends_complete (n := k.offset) ⟨[], rfl, rfl⟩ hu hv.symm
  rw [h] at he
  exact absurd he List.not_mem_nil

/-- The preferred way to read one text and then another: the first way to read the
one behind which the other is read. -/
theorem exists_of_seq (h : ((a.seq b).ends k).head? = some e) :
    ∃ before j behind, a.ends k = before ++ j :: behind ∧ (b.ends j).head? = some e ∧
      ∀ i ∈ before, b.ends i = [] := by
  rw [ends, List.head?_flatMap, List.findSome?_eq_some_iff] at h
  obtain ⟨before, j, behind, hends, hj, hbefore⟩ := h
  exact ⟨before, j, behind, hends, hj, fun i hi => List.head?_eq_none_iff.mp (hbefore i hi)⟩

/-- Behind as few characters as possible: behind fewer of them, nothing is read. -/
theorem exists_of_fewest (h : (((fewest q).seq b).ends k).head? = some e) :
    ∃ u v, k.rest = u ++ v ∧ (∀ c ∈ u, q c = true) ∧
      (b.ends ⟨k.offset + u.length, v, k.groups⟩).head? = some e ∧
      ∀ u' v', k.rest = u' ++ v' → u'.length < u.length → ∀ ⦃w gs⦄, b.Reads w gs → ¬ w <+: v' := by
  obtain ⟨before, j, behind, hends, hj, hbefore⟩ := exists_of_seq h
  obtain ⟨u, v, huv, hq, rfl, hshort, -⟩ := Cursor.exists_of_run_eq hends
  exact ⟨u, v, huv, hq, hj, fun u' v' huv' hlt w gs hw =>
    not_prefix_of_ends_eq_nil (hbefore _ (hshort u' v' huv' hlt)) hw⟩

/-- Behind as many characters as possible, but at least one: behind more of them,
nothing is read. -/
theorem exists_of_oneOrMore (h : (((oneOrMore p).seq b).ends k).head? = some e) :
    ∃ u v, k.rest = u ++ v ∧ (u ≠ [] ∧ ∀ c ∈ u, p c = true) ∧
      (b.ends ⟨k.offset + u.length, v, k.groups⟩).head? = some e ∧
      ∀ u' v', k.rest = u' ++ v' → (∀ c ∈ u', p c = true) → u.length < u'.length →
        ∀ ⦃w gs⦄, b.Reads w gs → ¬ w <+: v' := by
  obtain ⟨before, j, behind, hends, hj, hbefore⟩ := exists_of_seq h
  rw [oneOrMore, ends, ends, Cursor.next?] at hends
  split at hends
  · exact absurd hends (by simp)
  · rename_i c cs hrest
    split at hends
    · rename_i hc
      rw [List.flatMap_singleton, ends] at hends
      have hrun := congrArg List.reverse hends
      rw [List.reverse_reverse, List.reverse_append, List.reverse_cons, List.append_assoc] at hrun
      obtain ⟨u, v, rfl, hp, rfl, -, hlong⟩ := Cursor.exists_of_run_eq hrun
      have hlen (w : Text) : k.offset + 1 + w.length = k.offset + (c :: w).length := by
        rw [List.length_cons, Nat.add_assoc, Nat.add_comm 1]
      rw [hlen] at hj
      refine ⟨c :: u, v, hrest, ⟨List.cons_ne_nil c u, List.forall_mem_cons.mpr ⟨hc, hp⟩⟩, hj, ?_⟩
      intro u' v' huv hp' hlt w gs hw
      cases u' with
      | nil => exact absurd hlt (Nat.not_lt_zero _)
      | cons d u' =>
        obtain ⟨rfl, huv'⟩ := List.cons_eq_cons.mp (hrest.symm.trans huv)
        have hmem := hlong u' v' huv' (List.forall_mem_cons.mp hp').2 (Nat.lt_of_succ_lt_succ hlt)
        exact not_prefix_of_ends_eq_nil (hbefore _ (List.mem_reverse.mp hmem)) hw
    · exact absurd hends (by simp)

/-- What is read at a place behind a spelling, a run that is as long as possible, and
as few characters as possible. -/
theorem exists_of_matchAt {x : Text} {n : Nat} {t : Text} {m : Match}
    (h : ((anyCase x).seq ((oneOrMore p).seq ((fewest q).seq b))).matchAt n t = some m) :
    ∃ o r s u v gs, m = ⟨n, o ++ (r ++ (s ++ u)), gs⟩ ∧ t = o ++ (r ++ (s ++ (u ++ v))) ∧ o.Spells x ∧
      (r ≠ [] ∧ ∀ c ∈ r, p c = true) ∧ (∀ c ∈ s, q c = true) ∧ b.Reads u gs ∧
      (∀ r' v', r ++ (s ++ (u ++ v)) = r' ++ v' → (∀ c ∈ r', p c = true) → r.length < r'.length →
        ∀ ⦃w gs⦄, ((fewest q).seq b).Reads w gs → ¬ w <+: v') ∧
      ∀ s' v', s ++ (u ++ v) = s' ++ v' → s'.length < s.length → ∀ ⦃w gs⦄, b.Reads w gs → ¬ w <+: v' := by
  simp only [matchAt, Option.map_eq_some_iff] at h
  obtain ⟨e, he, rfl⟩ := h
  have hk : Cursor.Within n t ⟨n, t, []⟩ := ⟨[], rfl, rfl⟩
  obtain ⟨before, k, behind, hends, he, -⟩ := exists_of_seq he
  obtain ⟨o, gs, ho, hrest, hoffset, htexts⟩ :=
    ends_sound hk (hends ▸ List.mem_append_right before List.mem_cons_self)
  obtain ⟨hspells, rfl⟩ := reads_anyCase.mp ho
  obtain ⟨r, v₁, hr, hp, he, hlong⟩ := exists_of_oneOrMore he
  obtain ⟨s, v₂, hs, hq, he, hshort⟩ := exists_of_fewest he
  simp only at hrest hoffset hs hshort he
  have hwithin : Cursor.Within n t ⟨k.offset + r.length + s.length, v₂, k.groups⟩ := by
    refine ⟨o ++ (r ++ s), ?_, ?_⟩
    · rw [hrest, hr, hs, List.append_assoc, List.append_assoc]
    · simp only [hoffset, List.length_append]
      omega
  obtain ⟨u, gs, hu, hrest', hoffset', htexts'⟩ := ends_sound hwithin (List.mem_of_mem_head? he)
  simp only at hrest' hoffset'
  subst hrest' hs
  rw [hr] at hrest hlong
  refine ⟨o, r, s, u, e.rest, gs, ?_, hrest, hspells, hp, hq, hu, hlong, hshort⟩
  have hlen : e.offset - n = (o ++ (r ++ (s ++ u))).length := by
    simp only [List.length_append]
    omega
  have htake : t.take (e.offset - n) = o ++ (r ++ (s ++ u)) := by
    rw [hlen, hrest]
    have : o ++ (r ++ (s ++ (u ++ e.rest))) = o ++ (r ++ (s ++ u)) ++ e.rest := by
      simp only [List.append_assoc]
    rw [this, List.take_left]
  have hgroups : e.texts n t = gs := by
    rw [htexts', show Cursor.texts n t ⟨k.offset + r.length + s.length, _, k.groups⟩ = [] from htexts,
      List.nil_append]
  rw [htake]
  exact congrArg _ hgroups

end Pattern

end Worksheet
