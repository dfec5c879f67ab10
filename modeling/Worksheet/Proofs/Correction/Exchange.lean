import Worksheet.Proofs.Correction.Splice
import Worksheet.Proofs.Pattern.Seam

/-!
# What corrections do to the readings of a pattern

A correction can keep the readings of a pattern (`Correction.Keeps`): it puts one
reading in the place of another, or changes text in which none starts. Or it
removes the readings that start in its span, and no others (`Correction.Swallows`).
If each of some corrections that stand one after another does one of the two, the
readings of the corrected text are those that no swallowing correction touches, up
to what the exchanged ones read (`forall₂_scanFrom_splice`).
-/

namespace Worksheet.Correction

open Pattern

/-- Whether a correction and a reading share text. -/
def touches (c : Correction) (m : Match) : Bool := c.start < m.stop && m.start < c.stop

/-- A correction of a text puts a reading in the place of another one, whose groups
are related to its own, or it changes text in which no reading starts, with text
behind it that it keeps. -/
inductive Keeps (p : Pattern) (R : List Text → List Text → Prop) (t : Text) (c : Correction) : Prop
  | exchange {u v : Text} {gs gs' : List Text} (split : t.drop c.start = u ++ v)
      (stop : c.stop = c.start + u.length) (old : p.Reads u gs) (new : p.Reads c.replacement gs')
      (related : R gs gs')
  | vary {s r z v : Text} (split : t.drop c.start = s ++ (z ++ v))
      (stop : c.stop = c.start + (s.length + z.length)) (replacement : c.replacement = r ++ z)
      (old_sealed : p.Sealed s) (old_barren : p.Barren s) (new_sealed : p.Sealed r)
      (new_barren : p.Barren r)

/-- A correction of a text puts text without readings in the place of text that no
reading reaches into. -/
structure Swallows (p : Pattern) (t : Text) (c : Correction) : Prop where
  split : ∃ s v : Text, t.drop c.start = s ++ v ∧ c.stop = c.start + s.length ∧ p.Sealed s
  new_sealed : p.Sealed c.replacement
  new_barren : p.Barren c.replacement

/-- Whether a reading is touched by no correction of a kind. -/
def spared (T : Correction → Bool) (cs : List Correction) (m : Match) : Bool :=
  !cs.any fun c => T c && c.touches m

variable {p : Pattern} {R : List Text → List Text → Prop} {T : Correction → Bool}

theorem spared_cons {c : Correction} {cs : List Correction} {m : Match}
    (h : T c = false ∨ c.touches m = false) : spared T (c :: cs) m = spared T cs m := by
  have hc : (T c && c.touches m) = false := Bool.and_eq_false_iff.mpr h
  rw [spared, List.any_cons, hc, Bool.false_or, spared]

/-- A reading is spared by the corrections behind it. -/
theorem spared_of_le {cs : List Correction} {m : Match} (h : ∀ c ∈ cs, m.stop ≤ c.start) :
    spared T cs m = true := by
  refine Bool.not_eq_true' _ ▸ List.any_eq_false.mpr fun c hc => ?_
  have hle : decide (c.start < m.stop) = false := decide_eq_false (Nat.not_lt.mpr (h c hc))
  rw [touches, hle, Bool.false_and, Bool.and_false]
  exact Bool.false_ne_true

theorem forall₂_of_map_groups (hR : ∀ gs, R gs gs) {xs ys : List Match}
    (h : xs.map (·.groups) = ys.map (·.groups)) :
    List.Forall₂ (fun a b => R a.groups b.groups) xs ys := by
  have hsame : List.Forall₂ R (xs.map (·.groups)) (ys.map (·.groups)) := by
    rw [h]
    exact List.forall₂_same.mpr fun gs _ => hR gs
  exact List.forall₂_map_right_iff.mp (List.forall₂_map_left_iff.mp hsame)

/-- In front of the first correction all readings are kept, if none reaches beyond
it, in the text or in the corrected one. -/
theorem forall₂_scanFrom_front (hp : p.Apart) (hR : ∀ gs, R gs gs) {n k : Nat} {x t t' : Text}
    {cs : List Correction} (hcs : ∀ c ∈ cs, n + x.length ≤ c.start) (ht : p.Clear t) (ht' : p.Clear t')
    (h : ∀ k, List.Forall₂ (fun a b => R a.groups b.groups)
      ((p.scanFrom 0 (n + x.length) t).filter (spared T cs)) (p.scanFrom 0 k t')) :
    List.Forall₂ (fun a b => R a.groups b.groups)
      ((p.scanFrom 0 n (x ++ t)).filter (spared T cs)) (p.scanFrom 0 k (x ++ t')) := by
  have hall : (p.scanFrom 0 n x).filter (spared T cs) = p.scanFrom 0 n x :=
    List.filter_eq_self.mpr fun m hm => spared_of_le fun c hc =>
      Nat.le_trans (bounds_of_mem_scanFrom hp hm).2.2 (hcs c hc)
  rw [scanFrom_clear hp ht, scanFrom_clear hp ht', List.filter_append, hall]
  exact List.rel_append (forall₂_of_map_groups hR (map_groups_scanFrom hp n k x)) (h _)

/-- From the front of the first correction on, given what happens behind it. -/
theorem forall₂_scanFrom_cons (hp : p.Apart) {t : Text} {c : Correction} {cs : List Correction}
    (hb : ∀ d ∈ cs, c.stop ≤ d.start ∧ d.start ≤ d.stop)
    (hc : if T c then Swallows p t c else Keeps p R t c)
    (ih : ∀ n k, n ≤ c.stop → List.Forall₂ (fun a b => R a.groups b.groups)
      ((p.scanFrom 0 n (t.drop n)).filter (spared T cs)) (p.scanFrom 0 k (splice n cs (t.drop n))))
    (k : Nat) :
    List.Forall₂ (fun a b => R a.groups b.groups)
      ((p.scanFrom 0 c.start (t.drop c.start)).filter (spared T (c :: cs)))
      (p.scanFrom 0 k (c.replacement ++ splice c.stop cs (t.drop c.stop))) := by
  have hdrop {s v : Text} {a : Nat} (h : t.drop a = s ++ v) : t.drop (a + s.length) = v := by
    rw [← List.drop_drop, h, List.drop_left]
  split at hc
  · -- The readings that start in the span of a swallowing correction are lost.
    obtain ⟨⟨s, v, hsplit, hstop, -⟩, -, hbarren⟩ := hc
    obtain ⟨ms, hms, hstart⟩ := exists_scanFrom_append hp c.start s v
    rename_i hT
    have hnone : ms.filter (spared T (c :: cs)) = [] := by
      refine List.filter_eq_nil_iff.mpr fun m hm => ?_
      have hmem : m ∈ p.scanFrom 0 c.start (s ++ v) := hms ▸ List.mem_append_left _ hm
      have hm' := bounds_of_mem_scanFrom hp hmem
      have htouch : c.touches m = true := by
        rw [touches, Bool.and_eq_true, decide_eq_true_eq, decide_eq_true_eq, hstop]
        exact ⟨by omega, (hstart m hm).2⟩
      simp only [spared, List.any_cons, hT, htouch, Bool.and_self, Bool.true_or, Bool.not_true,
        Bool.false_eq_true, not_false_eq_true]
    have hrest : (p.scanFrom 0 c.stop v).filter (spared T (c :: cs)) =
        (p.scanFrom 0 c.stop v).filter (spared T cs) := by
      refine List.filter_congr fun m hm => spared_cons (.inr ?_)
      have := (bounds_of_mem_scanFrom hp hm).1
      rw [touches, Bool.and_eq_false_iff, decide_eq_false_iff_not, decide_eq_false_iff_not]
      omega
    have hv : t.drop c.stop = v := by rw [hstop, hdrop hsplit]
    rw [hsplit, hms, List.filter_append, hnone, List.nil_append, ← hstop, hrest,
      scanFrom_barren hbarren]
    have := ih c.stop (k + c.replacement.length) (Nat.le_refl _)
    rwa [hv] at this ⊢
  · rename_i hT
    have hkeep : ∀ m, spared T (c :: cs) m = spared T cs m := fun m =>
      spared_cons (.inl (Bool.eq_false_iff.mpr hT))
    rw [show spared T (c :: cs) = spared T cs from funext hkeep]
    cases hc with
    | @exchange u v gs gs' hsplit hstop hold hnew hrel =>
      have hv : t.drop c.stop = v := by rw [hstop, hdrop hsplit]
      have hspared : spared T cs ⟨c.start, u, gs⟩ = true := spared_of_le fun d hd => by
        rw [Match.stop, ← hstop]
        exact (hb d hd).1
      rw [hsplit, scanFrom_reading hp hold, scanFrom_reading hp hnew,
        List.filter_cons_of_pos hspared, ← hstop]
      have := ih c.stop (k + c.replacement.length) (Nat.le_refl _)
      rw [hv] at this ⊢
      exact .cons hrel this
    | @vary s r z v hsplit hstop hreplacement _ hs _ hr =>
      have hz : t.drop (c.start + s.length) = z ++ v := hdrop hsplit
      have hstop' : c.stop = c.start + s.length + z.length := by rw [hstop, Nat.add_assoc]
      have hv : t.drop c.stop = v := by rw [hstop', hdrop hz]
      -- What is kept behind the change is text in front of the next correction.
      have hsplice : z ++ splice c.stop cs v = splice (c.start + s.length) cs (z ++ v) := by
        rw [splice_append fun d hd => by rw [← hstop']; exact hb d hd, ← hstop']
      rw [hsplit, scanFrom_barren hs, hv, hreplacement, List.append_assoc, scanFrom_barren hr, hsplice]
      have := ih (c.start + s.length) (k + r.length) (by omega)
      rwa [hz] at this

theorem clear_of_swallows_or_keeps (hp : p.Apart) {t : Text} {c : Correction}
    (hc : if T c then Swallows p t c else Keeps p R t c) (w : Text) :
    p.Clear (t.drop c.start) ∧ p.Clear (c.replacement ++ w) := by
  split at hc
  · obtain ⟨⟨s, v, hsplit, -, hs⟩, hr, -⟩ := hc
    rw [hsplit]
    exact ⟨hs v, hr w⟩
  · cases hc with
    | @exchange u v gs gs' hsplit _ hold hnew _ =>
      rw [hsplit]
      exact ⟨hp.sealed_of_reads hold v, hp.sealed_of_reads hnew w⟩
    | @vary s r z v hsplit _ hreplacement hs _ hr _ =>
      rw [hsplit, hreplacement, List.append_assoc]
      exact ⟨hs _, hr _⟩

/-- The readings of a corrected text are, one by one, those of the text that no
swallowing correction touches. -/
theorem forall₂_scanFrom_splice (hp : p.Apart) (hR : ∀ gs, R gs gs) {t : Text} {cs : List Correction}
    {n : Nat} (hcs : cs.Pairwise Before) (hb : ∀ c ∈ cs, c.Between n t.length)
    (h : ∀ c ∈ cs, if T c then Swallows p t c else Keeps p R t c) (k : Nat) :
    List.Forall₂ (fun a b => R a.groups b.groups)
      ((p.scanFrom 0 n (t.drop n)).filter (spared T cs)) (p.scanFrom 0 k (splice n cs (t.drop n))) := by
  induction cs generalizing n k with
  | nil =>
    have hall : (p.scanFrom 0 n (t.drop n)).filter (spared T []) = p.scanFrom 0 n (t.drop n) :=
      List.filter_eq_self.mpr fun _ _ => rfl
    rw [hall, splice]
    exact forall₂_of_map_groups hR (map_groups_scanFrom hp n k _)
  | cons c cs ih =>
    obtain ⟨hc, hcs⟩ := List.pairwise_cons.mp hcs
    obtain ⟨hn, hspan, hstop⟩ := hb c List.mem_cons_self
    obtain ⟨hold, hnew⟩ := clear_of_swallows_or_keeps hp (h c List.mem_cons_self)
      (splice c.stop cs (t.drop c.stop))
    have hlen : n + (t.slice n c.start).length = c.start := by
      rw [Text.length_slice (Nat.le_trans hspan hstop), Nat.add_sub_cancel' hn]
    have hlater : ∀ d ∈ cs, c.stop ≤ d.start ∧ d.start ≤ d.stop := fun d hd =>
      ⟨(hc d hd).2, (hb d (List.mem_cons_of_mem _ hd)).span⟩
    have hfront : ∀ d ∈ c :: cs, n + (t.slice n c.start).length ≤ d.start := by
      rw [hlen]
      exact List.forall_mem_cons.mpr ⟨Nat.le_refl _, fun d hd => Nat.le_of_lt (hc d hd).1⟩
    have hrest := forall₂_scanFrom_cons (R := R) hp hlater (h c List.mem_cons_self)
      fun m k hm => ih (n := m) hcs
        (fun d hd => ⟨Nat.le_trans hm (hlater d hd).1, (hlater d hd).2,
          (hb d (List.mem_cons_of_mem _ hd)).stop⟩)
        (fun d hd => h d (List.mem_cons_of_mem _ hd)) k
    have := forall₂_scanFrom_front (k := k) hp hR hfront hold hnew (by rwa [hlen])
    rwa [Text.slice_append_drop t hn, ← splice_drop_cons (Nat.le_trans hn hspan)] at this

end Worksheet.Correction
