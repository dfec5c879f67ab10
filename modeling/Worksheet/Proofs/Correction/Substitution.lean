import Worksheet.Proofs.Correction.Greedy

/-!
# Corrections put in at once

`Correction.applyAll` puts one replacement after another into a text that changes on the way.
What comes out is what would come out if all were put in at once: the parts of the original
text that no picked correction replaces, with the replacements between them
(`applyAll_eq_interleave`). Corrections may meet, and they may only insert something.

* `splice_eq_interleave`: one pass over the text puts the parts together;
* `flatten_untouched`: these parts hold the characters outside of all spans, in their order;
* `splice_append_cons`, `length_splice`: where a replacement stands.
-/

namespace Worksheet.Correction

/-- Corrections in the order of their places. -/
def frontToBack (cs : List Correction) : List Correction :=
  cs.mergeSort fun a b => a.start ≤ b.start

/-- The parts of a text from offset `n` on that corrections, in the order of their places,
leave as they are: one in front of each correction, and the rest. -/
def untouched (t : Text) : Nat → List Correction → List Text
  | n, [] => [t.drop n]
  | n, c :: cs => t.slice n c.start :: untouched t c.stop cs

/-- The texts of two lists by turns; nothing is left out. -/
def interleave : List Text → List Text → Text
  | x :: xs, r :: rs => x ++ (r ++ interleave xs rs)
  | xs, [] => xs.flatten
  | [], rs => rs.flatten

/-- The characters that no correction replaces, in a text that starts at offset `n`. -/
def unspanned (cs : List Correction) (n : Nat) (t : Text) : Text :=
  ((t.zipIdx n).filter fun x => !cs.any (·.spans x.2)).map (·.1)

/-- By how many characters corrections lengthen a text. -/
def growth : List Correction → Int
  | [] => 0
  | c :: cs => (c.replacement.length - ((c.stop : Int) - c.start)) + growth cs

/-! ## The order of the corrections -/

/-- Corrections that stand one after another are in the order of their places. -/
theorem frontToBack_eq {cs bs : List Correction} (hperm : cs.Perm bs) (h : cs.Pairwise Before) :
    frontToBack bs = cs := by
  refine eq_of_sorted h ((List.mergeSort_perm ..).trans hperm.symm) ?_
  exact List.Pairwise.imp (fun hab => of_decide_eq_true hab)
    (List.pairwise_mergeSort (fun a b c hab hbc => by simp only [decide_eq_true_eq] at *; omega)
      (fun a b => by simp only [Bool.or_eq_true, decide_eq_true_eq]; omega) bs)

/-! ## The parts of the text -/

/-- One pass over a text puts the replacements between the parts that are left as they are. -/
theorem splice_eq_interleave {t : Text} {n : Nat} {cs : List Correction} (h : cs.Pairwise Before)
    (hb : ∀ c ∈ cs, c.Between n t.length) :
    splice n cs (t.drop n) = interleave (untouched t n cs) (cs.map (·.replacement)) := by
  induction cs generalizing n with
  | nil => rw [splice, untouched, List.map_nil, interleave, List.flatten_singleton]
  | cons c cs ih =>
    obtain ⟨hstart, hspan, -⟩ := hb c List.mem_cons_self
    rw [splice_drop_cons (Nat.le_trans hstart hspan), untouched, List.map_cons, interleave,
      ih h.of_cons (between_tail h hb)]

theorem unspanned_append (cs : List Correction) (n : Nat) (x y : Text) :
    unspanned cs n (x ++ y) = unspanned cs n x ++ unspanned cs (n + x.length) y := by
  rw [unspanned, List.zipIdx_append, List.filter_append, List.map_append]
  rfl

theorem unspanned_eq_self {cs : List Correction} {n : Nat} {t : Text}
    (h : ∀ c ∈ cs, n + t.length ≤ c.start) : unspanned cs n t = t := by
  have hall : (t.zipIdx n).filter (fun x => !cs.any (·.spans x.2)) = t.zipIdx n := by
    refine List.filter_eq_self.mpr fun x hx => Bool.not_eq_true' _ ▸ List.any_eq_false.mpr fun c hc => ?_
    have hlt := List.snd_lt_add_of_mem_zipIdx hx
    have hle := h c hc
    rw [spans_iff]
    omega
  rw [unspanned, hall]
  exact List.zipIdx_map_fst n t

theorem unspanned_eq_nil {cs : List Correction} {n : Nat} {t : Text} {c : Correction} (hc : c ∈ cs)
    (hstart : c.start ≤ n) (hstop : n + t.length ≤ c.stop) : unspanned cs n t = [] := by
  refine List.map_eq_nil_iff.mpr (List.filter_eq_nil_iff.mpr fun x hx => ?_)
  have hle := List.le_snd_of_mem_zipIdx hx
  have hlt := List.snd_lt_add_of_mem_zipIdx hx
  have hspans : c.spans x.2 = true := spans_iff.mpr (by omega)
  rw [List.any_eq_true.mpr ⟨c, hc, hspans⟩]
  exact Bool.false_ne_true

/-- A correction in front of a text replaces nothing in it. -/
theorem unspanned_cons_of_le {c : Correction} {cs : List Correction} {n : Nat} (h : c.stop ≤ n)
    (t : Text) : unspanned (c :: cs) n t = unspanned cs n t := by
  refine congrArg (List.map _) (List.filter_congr fun x hx => ?_)
  have hle := List.le_snd_of_mem_zipIdx hx
  have hspans : c.spans x.2 = false := Bool.eq_false_iff.mpr fun h => by
    have := spans_iff.mp h
    omega
  rw [List.any_cons, hspans, Bool.false_or]

theorem unspanned_perm {cs bs : List Correction} (h : cs.Perm bs) (n : Nat) (t : Text) :
    unspanned cs n t = unspanned bs n t :=
  congrArg (List.map _) (List.filter_congr fun _ _ => congrArg (!·) h.any_eq)

/-- The parts that are left as they are hold the characters that no correction replaces. -/
theorem flatten_untouched {t : Text} {n : Nat} {cs : List Correction} (h : cs.Pairwise Before)
    (hb : ∀ c ∈ cs, c.Between n t.length) : (untouched t n cs).flatten = unspanned cs n (t.drop n) := by
  induction cs generalizing n with
  | nil =>
    rw [untouched, List.flatten_singleton, unspanned_eq_self (List.forall_mem_nil _)]
  | cons c cs ih =>
    obtain ⟨hstart, hspan, hstop⟩ := hb c List.mem_cons_self
    obtain ⟨hc, hcs⟩ := List.pairwise_cons.mp h
    -- In front of the correction, in its span, and behind it.
    have hsplit : t.drop n = t.slice n c.start ++ (t.slice c.start c.stop ++ t.drop c.stop) := by
      rw [Text.slice_append_drop t hspan, Text.slice_append_drop t hstart]
    have hfront : n + (t.slice n c.start).length = c.start := by
      rw [Text.length_slice (Nat.le_trans hspan hstop), Nat.add_sub_cancel' hstart]
    have hspanned : c.start + (t.slice c.start c.stop).length = c.stop := by
      rw [Text.length_slice hstop, Nat.add_sub_cancel' hspan]
    have hbefore : ∀ d ∈ c :: cs, n + (t.slice n c.start).length ≤ d.start := by
      rw [hfront]
      exact List.forall_mem_cons.mpr ⟨Nat.le_refl _, fun d hd => Nat.le_of_lt (hc d hd).1⟩
    rw [untouched, List.flatten_cons, ih hcs (between_tail h hb), hsplit, unspanned_append,
      unspanned_append, unspanned_eq_self hbefore, hfront, hspanned,
      unspanned_eq_nil List.mem_cons_self (Nat.le_refl _) (Nat.le_of_eq hspanned),
      unspanned_cons_of_le (Nat.le_refl _), List.nil_append]

/-! ## The places of the replacements -/

theorem growth_perm {cs bs : List Correction} (h : cs.Perm bs) : growth cs = growth bs := by
  induction h with
  | nil => rfl
  | cons c _ ih => rw [growth, growth, ih]
  | swap c d cs =>
    simp only [growth]
    omega
  | trans _ _ ih ih' => rw [ih, ih']

theorem length_splice {t : Text} {n : Nat} {cs : List Correction} (h : cs.Pairwise Before)
    (hn : n ≤ t.length) (hb : ∀ c ∈ cs, c.Between n t.length) :
    ((splice n cs (t.drop n)).length : Int) = t.length - n + growth cs := by
  induction cs generalizing n with
  | nil =>
    rw [splice, growth, List.length_drop]
    omega
  | cons c cs ih =>
    obtain ⟨hstart, hspan, hstop⟩ := hb c List.mem_cons_self
    have hrest := ih h.of_cons hstop (between_tail h hb)
    rw [splice_drop_cons (Nat.le_trans hstart hspan), growth, List.length_append, List.length_append,
      Text.length_slice (Nat.le_trans hspan hstop)]
    omega

/-- What stands in front of a replacement depends only on the text and the corrections there. -/
theorem splice_append_cons {t : Text} {n : Nat} {xs ys : List Correction} {c : Correction}
    (h : (xs ++ c :: ys).Pairwise Before) (hb : ∀ d ∈ xs ++ c :: ys, d.Between n t.length) :
    splice n (xs ++ c :: ys) (t.drop n) =
      splice n xs ((t.take c.start).drop n) ++ (c.replacement ++ splice c.stop ys (t.drop c.stop)) := by
  induction xs generalizing n with
  | nil =>
    obtain ⟨hstart, hspan, -⟩ := hb c List.mem_cons_self
    rw [List.nil_append, splice_drop_cons (Nat.le_trans hstart hspan), splice, Text.slice]
  | cons x xs ih =>
    obtain ⟨hstart, hspan, -⟩ := hb x List.mem_cons_self
    have hxc : x.start ≤ c.start :=
      Nat.le_of_lt ((List.pairwise_cons.mp h).1 c (List.mem_append_right xs List.mem_cons_self)).1
    have hslice : Text.slice (t.take c.start) n x.start = t.slice n x.start := by
      rw [Text.slice, List.take_take, Nat.min_eq_left hxc, Text.slice]
    rw [List.cons_append] at h hb ⊢
    rw [splice_drop_cons (Nat.le_trans hstart hspan), splice_drop_cons (Nat.le_trans hstart hspan),
      ih h.of_cons (between_tail h hb), hslice, List.append_assoc, List.append_assoc]

/-- Corrections put in one after another are put in at once: between the parts of the text
that they leave as they are, in the order of their places. The characters outside of their
spans are kept, once each and in their order; every replacement stands where its correction
starts, moved by what those in front of it add; and the text grows by what all of them add. -/
theorem applyAll_eq_interleave {t : Text} {ds : List Diagnostic}
    (h : ∀ c ∈ offered ds, c.start ≤ c.stop ∧ c.stop ≤ t.length) :
    applyAll t ds =
      (interleave (untouched t 0 (frontToBack (select ds)))
        ((frontToBack (select ds)).map (·.replacement)), (select ds).length) ∧
    (untouched t 0 (frontToBack (select ds))).flatten = unspanned (select ds) 0 t ∧
    (∀ xs c ys, frontToBack (select ds) = xs ++ c :: ys →
      ∃ u v, (applyAll t ds).1 = u ++ (c.replacement ++ v) ∧ (u.length : Int) = c.start + growth xs) ∧
    ((applyAll t ds).1.length : Int) = t.length + growth (select ds) := by
  have hspans : ∀ d ∈ ds, ∀ c, d.fix = some c → c.start ≤ c.stop ∧ c.stop ≤ t.length :=
    fun d hd c hc => h c (List.mem_filterMap.mpr ⟨d, hd, hc⟩)
  obtain ⟨cs, hperm, hbefore, hbetween, happly⟩ := exists_applyAll_eq_splice hspans
  rw [frontToBack_eq hperm hbefore, happly, hperm.length_eq, ← unspanned_perm hperm,
    ← growth_perm hperm]
  refine ⟨congrArg (·, _) (splice_eq_interleave hbefore hbetween), flatten_untouched hbefore hbetween,
    ?_, ?_⟩
  · rintro xs c ys rfl
    refine ⟨_, _, splice_append_cons hbefore hbetween, ?_⟩
    obtain ⟨hxs, -, hxc⟩ := List.pairwise_append.mp hbefore
    have hc := (hbetween c (List.mem_append_right xs List.mem_cons_self))
    have hlen : (t.take c.start).length = c.start :=
      List.length_take_of_le (Nat.le_trans hc.span hc.stop)
    have hfront : ∀ d ∈ xs, d.Between 0 (t.take c.start).length := fun d hd => by
      rw [hlen]
      exact ⟨Nat.zero_le _, (hbetween d (List.mem_append_left _ hd)).span, (hxc d hd c List.mem_cons_self).2⟩
    have := length_splice hxs (Nat.zero_le _) hfront
    rw [hlen] at this
    omega
  · have := length_splice hbefore (Nat.zero_le _) hbetween
    rwa [List.drop_zero, Int.natCast_zero, Int.sub_zero] at this

/-- The corrections that are picked where some meet and some cross, in the order of their
places. -/
def crossingInOrder : List Correction :=
  [⟨0, 3, lit "ONE", none⟩, ⟨3, 3, lit " and", none⟩, ⟨8, 13, lit "3", none⟩, ⟨13, 13, lit "!", none⟩]

theorem applyAll_eq_interleave_crossing :
    (∀ c ∈ offered crossing, c.start ≤ c.stop ∧ c.stop ≤ (lit "one two three").length) ∧
    applyAll (lit "one two three") crossing = (lit "ONE and two 3!", 4) ∧
    (untouched (lit "one two three") 0 crossingInOrder).flatten = lit " two " ∧
    (∀ xs c ys, crossingInOrder = xs ++ c :: ys →
      ∃ u v, lit "ONE and two 3!" = u ++ (c.replacement ++ v) ∧ (u.length : Int) = c.start + growth xs) ∧
    ((lit "ONE and two 3!").length : Int) = (lit "one two three").length + growth (select crossing) := by
  have hspans : ∀ c ∈ offered crossing, c.start ≤ c.stop ∧ c.stop ≤ (lit "one two three").length := by
    decide
  have hsort : frontToBack (select crossing) = crossingInOrder :=
    frontToBack_eq (by decide) (by simp [crossingInOrder, Before])
  obtain ⟨happly, hkept, hplace, hlength⟩ := applyAll_eq_interleave hspans
  rw [hsort] at happly hkept hplace
  rw [happly] at hplace hlength
  exact ⟨hspans, happly, hkept, hplace, hlength⟩

end Worksheet.Correction
