import Worksheet.Proofs.Pattern.Single

/-!
# Readings that stand apart

Two readings of a pattern whose readings never overlap (`Pattern.Apart`) stand
apart in a text, with free text between them. So every text is woven of free text
and readings (`exists_weave`), and whatever is woven so is taken apart again by
`Pattern.scan` (`scan_weave`). Readings may therefore be exchanged for others: no
reading is lost at a seam, and none appears there.
-/

namespace Worksheet.Pattern

/-- Readings are not empty, at one place there is at most one, and none starts
within another. -/
structure Apart (p : Pattern) : Prop where
  nonempty : ∀ ⦃u gs⦄, p.Reads u gs → u ≠ []
  single : p.Single
  disjoint : ∀ ⦃x y u gs hs⦄, p.Reads (x ++ y) gs → x ≠ [] → y ≠ [] → p.Reads u hs →
    ¬ (y <+: u ∨ u <+: y)

/-- A text without readings. -/
def Free (p : Pattern) (w : Text) : Prop := ∀ u gs, p.Reads u gs → ¬ u <:+: w

/-- A reading and the text up to the next one. -/
structure Piece where
  text : Text
  groups : List Text
  after : Text

/-- A piece is a reading with free text behind it. -/
structure Piece.Fits (p : Pattern) (q : Piece) : Prop where
  reads : p.Reads q.text q.groups
  free : p.Free q.after

/-- The text of pieces behind a first text. -/
def weave (w : Text) : List Piece → Text
  | [] => w
  | q :: qs => w ++ (q.text ++ weave q.after qs)

/-- The readings in the text of pieces, if the first text starts at offset
`n`. -/
def woven (n : Nat) (w : Text) : List Piece → List Match
  | [] => []
  | q :: qs => ⟨n + w.length, q.text, q.groups⟩ :: woven (n + w.length + q.text.length) q.after qs

theorem weave_cons (c : Char) (w : Text) (qs : List Piece) : weave (c :: w) qs = c :: weave w qs := by
  cases qs <;> rfl

theorem free_nil {p : Pattern} (hp : p.Apart) : p.Free [] :=
  fun _ _ hu h => hp.nonempty hu (List.infix_nil.mp h)

theorem Free.tail {p : Pattern} {c : Char} {w : Text} (h : p.Free (c :: w)) : p.Free w :=
  fun u gs hu hi => h u gs hu (hi.trans (List.suffix_cons c w).isInfix)

theorem length_weave_cons (w : Text) (q : Piece) (qs : List Piece) :
    (weave w (q :: qs)).length = w.length + q.text.length + (weave q.after qs).length := by
  rw [weave, List.length_append, List.length_append, Nat.add_assoc]

/-- Readings lie within the text. -/
theorem bounds_of_mem_woven {n : Nat} {w : Text} {qs : List Piece} {m : Match}
    (h : m ∈ woven n w qs) : n + w.length ≤ m.start ∧ m.stop ≤ n + (weave w qs).length := by
  induction qs generalizing n w with
  | nil => exact absurd h List.not_mem_nil
  | cons q qs ih =>
    rw [length_weave_cons]
    rcases List.mem_cons.mp h with rfl | h
    · exact ⟨Nat.le_refl _, by simp only [Match.stop]; omega⟩
    · have := ih h
      omega

/-- Every reading ends where the next one starts, or before. -/
theorem pairwise_woven (n : Nat) (w : Text) (qs : List Piece) :
    (woven n w qs).Pairwise fun a b => a.stop ≤ b.start := by
  induction qs generalizing n w with
  | nil => exact List.Pairwise.nil
  | cons q qs ih =>
    refine List.Pairwise.cons (fun m hm => ?_) (ih _ _)
    have := (bounds_of_mem_woven hm).1
    simp only [Match.stop]
    omega

theorem mem_of_mem_woven {n : Nat} {w : Text} {qs : List Piece} {m : Match}
    (h : m ∈ woven n w qs) : ∃ q ∈ qs, m.text = q.text ∧ m.groups = q.groups := by
  induction qs generalizing n w with
  | nil => exact absurd h List.not_mem_nil
  | cons q qs ih =>
    rcases List.mem_cons.mp h with rfl | h
    · exact ⟨q, List.mem_cons_self, rfl, rfl⟩
    · obtain ⟨r, hr, he⟩ := ih h
      exact ⟨r, List.mem_cons_of_mem _ hr, he⟩

theorem map_groups_woven (n : Nat) (w : Text) (qs : List Piece) :
    (woven n w qs).map (·.groups) = qs.map (·.groups) := by
  induction qs generalizing n w with
  | nil => rfl
  | cons q qs ih => rw [woven, List.map_cons, ih, List.map_cons]

theorem forall_groups_woven_iff {P : List Text → Prop} {n : Nat} {w : Text} {qs : List Piece} :
    (∀ m ∈ woven n w qs, P m.groups) ↔ ∀ q ∈ qs, P q.groups := by
  have h := map_groups_woven n w qs
  constructor
  · intro hm
    have hgs : ∀ gs ∈ (woven n w qs).map (·.groups), P gs := List.forall_mem_map.mpr hm
    rw [h] at hgs
    exact List.forall_mem_map.mp hgs
  · intro hq
    have hgs : ∀ gs ∈ qs.map (·.groups), P gs := List.forall_mem_map.mpr hq
    rw [← h] at hgs
    exact List.forall_mem_map.mp hgs

/-! ## Taking a text apart -/

/-- Every text is woven of free text and readings. -/
theorem exists_weave {p : Pattern} (hp : p.Apart) (t : Text) :
    ∃ w qs, t = weave w qs ∧ p.Free w ∧ ∀ q ∈ qs, Piece.Fits p q := by
  -- By the length, as a whole reading is taken off at once.
  induction hn : t.length using Nat.strongRecOn generalizing t with
  | ind n ih =>
    cases t with
    | nil => exact ⟨[], [], rfl, free_nil hp, by simp⟩
    | cons c cs =>
      cases hm : p.matchAt 0 (c :: cs) with
      | none =>
        obtain ⟨w, qs, hw, hf, hq⟩ := ih cs.length (by simp [← hn]) cs rfl
        refine ⟨c :: w, qs, by rw [weave_cons, hw], fun u gs hu hi => ?_, hq⟩
        rcases List.infix_cons_iff.mp hi with h | h
        · have hpre : c :: w <+: c :: cs := by
            rw [hw, ← weave_cons]
            cases qs with
            | nil => exact List.prefix_rfl
            | cons q qs => exact List.prefix_append _ _
          exact matchAt_eq_none_iff.mp hm u gs hu (h.trans hpre)
        · exact hf u gs hu h
      | some m =>
        obtain ⟨-, ⟨z, hz⟩, hu⟩ := matchAt_eq_some hm
        have hlt : z.length < n := by
          have := List.length_pos_iff.mpr (hp.nonempty hu)
          rw [← hn, ← hz, List.length_append]
          omega
        obtain ⟨w, qs, hw, hf, hq⟩ := ih z.length hlt z rfl
        refine ⟨[], ⟨m.text, m.groups, w⟩ :: qs, ?_, free_nil hp, ?_⟩
        · rw [weave, List.nil_append, ← hw, hz]
        · simpa using ⟨⟨hu, hf⟩, hq⟩

/-! ## Scanning a woven text -/

theorem scanFrom_skip (p : Pattern) {k n : Nat} {t : Text} (h : k ≤ t.length) :
    p.scanFrom k n t = p.scanFrom 0 (n + k) (t.drop k) := by
  induction k generalizing n t with
  | zero => simp
  | succ k ih =>
    cases t with
    | nil => simp at h
    | cons c cs =>
      rw [scanFrom, ih (by simpa using h), List.drop_succ_cons, Nat.add_assoc, Nat.add_comm 1]

/-- What is read at the front of a text. -/
theorem matchAt_reading {p : Pattern} (hp : p.Apart) {n : Nat} {u t : Text} {gs : List Text}
    (hu : p.Reads u gs) : p.matchAt n (u ++ t) = some ⟨n, u, gs⟩ := by
  cases hm : p.matchAt n (u ++ t) with
  | none => exact absurd (List.prefix_append u t) (matchAt_eq_none_iff.mp hm _ gs hu)
  | some m =>
    obtain ⟨hs, hpre, hr⟩ := matchAt_eq_some hm
    obtain ⟨htext, hgroups⟩ := hp.single hr hu hpre (List.prefix_append u t)
    cases m
    simp only at hs htext hgroups
    rw [hs, htext, hgroups]

/-- A reading at the front of a text is found, and the search goes on behind
it. -/
theorem scanFrom_reading {p : Pattern} (hp : p.Apart) {n : Nat} {u t : Text} {gs : List Text}
    (hu : p.Reads u gs) :
    p.scanFrom 0 n (u ++ t) = ⟨n, u, gs⟩ :: p.scanFrom 0 (n + u.length) t := by
  have hm := matchAt_reading hp (n := n) (t := t) hu
  obtain ⟨c, cs, rfl⟩ := List.exists_cons_of_ne_nil (hp.nonempty hu)
  rw [List.cons_append] at hm
  rw [List.cons_append, scanFrom, hm]
  simp only [reduceCtorEq, if_false, List.length_cons, Nat.add_sub_cancel]
  rw [scanFrom_skip p (by simp), List.drop_left, Nat.add_assoc, Nat.add_comm 1]

/-- No reading starts in free text that ends where the text ends or a reading
starts. -/
theorem matchAt_free {p : Pattern} (hp : p.Apart) {n : Nat} {w t : Text} (hw : p.Free w)
    (hne : w ≠ []) (ht : t = [] ∨ ∃ u gs z, p.Reads u gs ∧ t = u ++ z) :
    p.matchAt n (w ++ t) = none := by
  refine matchAt_eq_none_iff.mpr fun v hs hv hpre => ?_
  -- The reading ends in the free text, or reaches into what follows.
  rcases List.prefix_or_prefix_of_prefix hpre (List.prefix_append w t) with h | ⟨y, rfl⟩
  · exact hw v hs hv h.isInfix
  · have hy : y <+: t := (List.prefix_append_right_inj w).mp hpre
    by_cases hye : y = []
    · subst hye
      rw [List.append_nil] at hv
      exact hw w hs hv List.infix_rfl
    · rcases ht with rfl | ⟨u, gs, z, hu, rfl⟩
      · exact hye (List.prefix_nil.mp hy)
      · have hyu := List.prefix_or_prefix_of_prefix hy (List.prefix_append u z)
        exact hp.disjoint hv hne hye hu hyu

theorem scanFrom_free {p : Pattern} (hp : p.Apart) {n : Nat} {w t : Text} (hw : p.Free w)
    (ht : t = [] ∨ ∃ u gs z, p.Reads u gs ∧ t = u ++ z) :
    p.scanFrom 0 n (w ++ t) = p.scanFrom 0 (n + w.length) t := by
  induction w generalizing n with
  | nil => rfl
  | cons c w ih =>
    have hm := matchAt_free hp (n := n) hw (List.cons_ne_nil c w) ht
    rw [List.cons_append] at hm
    rw [List.cons_append, scanFrom, hm]
    simp only
    rw [ih hw.tail, List.length_cons, Nat.add_assoc, Nat.add_comm 1]

/-- The first reading behind free text. -/
theorem findFrom_free_append {p : Pattern} (hp : p.Apart) {n : Nat} {w u t : Text} {gs : List Text}
    (hw : p.Free w) (hu : p.Reads u gs) :
    p.findFrom n (w ++ (u ++ t)) = some ⟨n + w.length, u, gs⟩ := by
  induction w generalizing n with
  | nil =>
    have hm := matchAt_reading hp (n := n) (t := t) hu
    obtain ⟨c, cs, rfl⟩ := List.exists_cons_of_ne_nil (hp.nonempty hu)
    rw [List.cons_append] at hm
    rw [List.nil_append, List.cons_append, findFrom, hm]
    rfl
  | cons c w ih =>
    have hm := matchAt_free hp (n := n) hw (List.cons_ne_nil c w) (.inr ⟨u, gs, t, hu, rfl⟩)
    rw [List.cons_append] at hm
    rw [List.cons_append, findFrom, hm]
    simp only
    rw [ih hw.tail, List.length_cons, Nat.add_assoc, Nat.add_comm 1]

theorem scanFrom_weave {p : Pattern} (hp : p.Apart) {n : Nat} {w : Text} {qs : List Piece}
    (hw : p.Free w) (hq : ∀ q ∈ qs, Piece.Fits p q) :
    p.scanFrom 0 n (weave w qs) = woven n w qs := by
  induction qs generalizing n w with
  | nil =>
    have h := scanFrom_free hp (n := n) hw (t := []) (.inl rfl)
    rwa [List.append_nil, scanFrom] at h
  | cons q qs ih =>
    simp only [List.mem_cons, forall_eq_or_imp] at hq
    obtain ⟨⟨hr, hf⟩, hqs⟩ := hq
    rw [weave, scanFrom_free hp hw (.inr ⟨_, _, _, hr, rfl⟩), scanFrom_reading hp hr, ih hf hqs]
    rfl

/-- The readings in a text woven of free text and readings are those that it is
woven of. -/
theorem scan_weave {p : Pattern} (hp : p.Apart) {w : Text} {qs : List Piece} (hw : p.Free w)
    (hq : ∀ q ∈ qs, Piece.Fits p q) : p.scan (weave w qs) = woven 0 w qs :=
  scanFrom_weave hp hw hq

end Worksheet.Pattern
