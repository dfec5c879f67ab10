import Mathlib.Data.List.Nodup
import Worksheet.Correction
import Worksheet.Proofs.Text.Search

/-!
# Corrections from front to back

`Correction.applyAll` puts replacements into a text from back to front. Where the
corrections stand one after another, the result is that of one pass from front
to back (`splice`), which keeps the text between them (`applyAll_eq_splice`).
Corrections that were picked always stand so, once they are put in the order of
their places (`exists_applyAll_eq_splice`).
-/

namespace Worksheet.Correction

/-- A correction comes before another one and does not touch its text. -/
def Before (a b : Correction) : Prop := a.start < b.start ∧ a.stop ≤ b.start

/-- The span of a correction lies between two offsets. -/
structure Between (n m : Nat) (c : Correction) : Prop where
  start : n ≤ c.start
  span : c.start ≤ c.stop
  stop : c.stop ≤ m

/-- A text that starts at offset `n`, with the replacements of corrections that
stand one after another. -/
def splice : Nat → List Correction → Text → Text
  | _, [], t => t
  | n, c :: cs, t =>
    t.take (c.start - n) ++ (c.replacement ++ splice c.stop cs (t.drop (c.stop - n)))

/-- Text in front of all corrections is kept. -/
theorem splice_append {n : Nat} {cs : List Correction} {x t : Text}
    (h : ∀ c ∈ cs, n + x.length ≤ c.start ∧ c.start ≤ c.stop) :
    splice n cs (x ++ t) = x ++ splice (n + x.length) cs t := by
  cases cs with
  | nil => rfl
  | cons c cs =>
    obtain ⟨hs, hc⟩ := h c List.mem_cons_self
    have htake : (x ++ t).take (c.start - n) = x ++ t.take (c.start - (n + x.length)) := by
      rw [List.take_append, List.take_of_length_le (by omega), Nat.sub_sub]
    have hdrop : (x ++ t).drop (c.stop - n) = t.drop (c.stop - (n + x.length)) := by
      rw [List.drop_append, List.drop_of_length_le (by omega), List.nil_append, Nat.sub_sub]
    rw [splice, splice, htake, hdrop, List.append_assoc]

/-- A text that is corrected as a whole is replaced. -/
theorem splice_whole (n : Nat) (cs : List Correction) (u t r : Text) (g : Option TextRange) :
    splice n (⟨n, n + u.length, r, g⟩ :: cs) (u ++ t) = r ++ splice (n + u.length) cs t := by
  rw [splice, Nat.sub_self, List.take_zero, List.nil_append, Nat.add_sub_cancel_left, List.drop_left]

/-- One pass, with the offsets of the original text. -/
theorem splice_drop_cons {t : Text} {n : Nat} {c : Correction} {cs : List Correction}
    (h : n ≤ c.stop) :
    splice n (c :: cs) (t.drop n) = t.slice n c.start ++ (c.replacement ++ splice c.stop cs (t.drop c.stop)) := by
  rw [splice, Text.slice, List.drop_take, List.drop_drop, Nat.add_sub_cancel' h]

/-- Behind the first correction of a text, the others stand in what is left of it. -/
theorem between_tail {n m : Nat} {c : Correction} {cs : List Correction}
    (h : (c :: cs).Pairwise Before) (hb : ∀ d ∈ c :: cs, d.Between n m) :
    ∀ d ∈ cs, d.Between c.stop m := fun d hd =>
  have hbetween := hb d (List.mem_cons_of_mem c hd)
  ⟨((List.pairwise_cons.mp h).1 d hd).2, hbetween.span, hbetween.stop⟩

/-! ## From back to front -/

/-- One correction after another, the last one first. -/
theorem foldr_apply {n : Nat} {cs : List Correction} {x t : Text} (hx : x.length = n)
    (hcs : cs.Pairwise Before) (hb : ∀ c ∈ cs, c.Between n (n + t.length)) :
    cs.foldr (fun c t => apply t c) (x ++ t) = x ++ splice n cs t := by
  induction cs generalizing n x t with
  | nil => rfl
  | cons c cs ih =>
    obtain ⟨hc, hcs⟩ := List.pairwise_cons.mp hcs
    obtain ⟨hn, hspan, hm⟩ := hb c List.mem_cons_self
    have hx' : (x ++ t.take (c.stop - n)).length = c.stop := by
      rw [List.length_append, List.length_take, hx]
      omega
    have hb' : ∀ d ∈ cs, d.Between c.stop (c.stop + (t.drop (c.stop - n)).length) := by
      intro d hd
      obtain ⟨-, hs, hd'⟩ := hb d (List.mem_cons_of_mem _ hd)
      exact ⟨(hc d hd).2, hs, by rw [List.length_drop]; omega⟩
    -- The later corrections leave alone what stands up to the end of this one.
    have hrest := ih hx' hcs hb'
    rw [List.append_assoc, List.take_append_drop] at hrest
    have htake : (x ++ t.take (c.stop - n)).take c.start = x ++ t.take (c.start - n) := by
      rw [List.take_append, List.take_of_length_le (by omega), List.take_take, hx,
        Nat.min_eq_left (by omega)]
    rw [List.foldr_cons, hrest, apply, List.take_append_of_le_length (by omega), htake,
      List.drop_left' hx', splice, List.append_assoc, List.append_assoc]

theorem eq_of_start_eq {cs : List Correction} (h : cs.Pairwise Before) {a b : Correction} (ha : a ∈ cs)
    (hb : b ∈ cs) (hs : a.start = b.start) : a = b := by
  have hn : (cs.map (·.start)).Nodup := by
    rw [List.Nodup, List.pairwise_map]
    exact h.imp fun hab => Nat.ne_of_lt hab.1
  exact List.inj_on_of_nodup_map hn ha hb hs

theorem pairwise_backToFront (cs : List Correction) :
    (backToFront cs).Pairwise fun a b => b.start ≤ a.start :=
  List.Pairwise.imp (fun hab => of_decide_eq_true hab)
    (List.pairwise_mergeSort (fun a b c hab hbc => by simp only [decide_eq_true_eq] at *; omega)
      (fun a b => by simp only [Bool.or_eq_true, decide_eq_true_eq]; omega) cs)

/-- There is only one order of places for corrections that stand one after another. -/
theorem eq_of_sorted {cs bs : List Correction} (h : cs.Pairwise Before) (hperm : bs.Perm cs)
    (hbs : bs.Pairwise fun a b => a.start ≤ b.start) : bs = cs :=
  List.Perm.eq_of_pairwise
    (fun _ _ ha hb hab hba => eq_of_start_eq h (hperm.mem_iff.mp ha) hb (Nat.le_antisymm hab hba))
    hbs (h.imp fun hab => Nat.le_of_lt hab.1) hperm

/-- Corrections that stand one after another are only turned round. -/
theorem backToFront_eq_reverse {cs : List Correction} (h : cs.Pairwise Before) :
    backToFront cs = cs.reverse := by
  have hperm : (backToFront cs).reverse.Perm cs := (List.reverse_perm _).trans (List.mergeSort_perm ..)
  exact List.reverse_eq_iff.mp
    (eq_of_sorted h hperm (List.pairwise_reverse.mpr (pairwise_backToFront cs)))

/-! ## Picking corrections -/

theorem overlaps_iff {a b : Correction} :
    overlaps a b = true ↔ a.start = b.start ∨ (a.start < b.stop ∧ b.start < a.stop) := by
  rw [overlaps, Bool.or_eq_true, beq_iff_eq, Bool.and_eq_true, decide_eq_true_eq, decide_eq_true_eq]

theorem overlaps_eq_false {a b : Correction} (h : Before a b) : overlaps b a = false := by
  obtain ⟨hstart, hstop⟩ := h
  rw [Bool.eq_false_iff, Ne, overlaps_iff]
  omega

theorem choices_of_pairwise {picked : List Correction} {ds : List Diagnostic}
    (h : (picked ++ ds.filterMap (·.fix)).Pairwise Before) :
    (choices picked ds).filterMap (·.taken?) = ds.filterMap (·.fix) := by
  induction ds generalizing picked with
  | nil => rfl
  | cons d ds ih =>
    cases hd : d.fix with
    | none =>
      rw [List.filterMap_cons_none hd] at h ⊢
      rw [choices, hd]
      exact ih h
    | some c =>
      rw [List.filterMap_cons_some hd] at h ⊢
      have hfree : picked.any (overlaps c) = false := by
        refine List.any_eq_false.mpr fun o ho => ?_
        rw [overlaps_eq_false ((List.pairwise_append.mp h).2.2 o ho c List.mem_cons_self)]
        exact Bool.false_ne_true
      rw [choices, hd]
      simp only [hfree, Bool.false_eq_true, if_false]
      exact congrArg (c :: ·) (ih (by rwa [List.append_assoc]))

/-- Of corrections that stand one after another, none is passed over. -/
theorem select_of_pairwise {ds : List Diagnostic} (h : (ds.filterMap (·.fix)).Pairwise Before) :
    select ds = ds.filterMap (·.fix) :=
  choices_of_pairwise h

/-- A single correction is put in. -/
theorem applyAll_singleton {t : Text} {d : Diagnostic} {c : Correction} (h : d.fix = some c) :
    (applyAll t [d]).1 = apply t c := by
  have hselect : select [d] = [c] := by
    rw [select_of_pairwise] <;> simp [h]
  rw [applyAll, hselect, backToFront, List.mergeSort_singleton]
  rfl

/-- Corrections that stand one after another within a text are all applied, and
the text between them is kept. -/
theorem applyAll_eq_splice {t : Text} {ds : List Diagnostic} {cs : List Correction}
    (hds : ds.filterMap (·.fix) = cs) (h : cs.Pairwise Before)
    (hb : ∀ c ∈ cs, c.Between 0 t.length) : applyAll t ds = (splice 0 cs t, cs.length) := by
  subst hds
  have hfold := foldr_apply (n := 0) (x := []) (t := t) rfl h
    (fun c hc => by rw [Nat.zero_add]; exact hb c hc)
  rw [applyAll, select_of_pairwise h, backToFront_eq_reverse h, List.foldl_reverse]
  exact congrArg (·, _) hfold

/-! ## Picked corrections -/

theorem overlaps_comm (a b : Correction) : overlaps a b = overlaps b a := by
  rw [overlaps, overlaps, Bool.beq_comm, Bool.and_comm]

/-- What is picked does not overlap. -/
theorem pairwise_choices {picked : List Correction} {ds : List Diagnostic}
    (h : picked.Pairwise fun a b => overlaps a b = false) :
    (picked ++ (choices picked ds).filterMap (·.taken?)).Pairwise fun a b => overlaps a b = false := by
  induction ds generalizing picked with
  | nil => rwa [choices, List.filterMap_nil, List.append_nil]
  | cons d ds ih =>
    rw [choices]
    split
    · exact ih h
    · rename_i c _
      split
      · exact ih h
      · rename_i hfree
        have hone : (picked ++ [c]).Pairwise fun a b => overlaps a b = false := by
          refine List.pairwise_append.mpr ⟨h, List.pairwise_singleton _ c, fun a ha b hb => ?_⟩
          obtain rfl := List.mem_singleton.mp hb
          rw [overlaps_comm]
          exact Bool.eq_false_iff.mpr fun hab => hfree (List.any_eq_true.mpr ⟨a, ha, hab⟩)
        have := ih hone
        rwa [List.append_assoc] at this

theorem pairwise_select (ds : List Diagnostic) :
    (select ds).Pairwise fun a b => overlaps a b = false :=
  pairwise_choices List.Pairwise.nil

theorem exists_of_mem_choices {picked : List Correction} {ds : List Diagnostic} {c : Correction}
    (h : c ∈ (choices picked ds).filterMap (·.taken?)) : ∃ d ∈ ds, d.fix = some c := by
  induction ds generalizing picked with
  | nil => exact absurd h List.not_mem_nil
  | cons d ds ih =>
    have later {picked : List Correction} (h : c ∈ (choices picked ds).filterMap (·.taken?)) :
        ∃ e ∈ d :: ds, e.fix = some c := by
      obtain ⟨e, he, hc⟩ := ih h
      exact ⟨e, List.mem_cons_of_mem _ he, hc⟩
    rw [choices] at h
    split at h
    · exact later h
    · rename_i o ho
      split at h
      · exact later h
      · rcases List.mem_cons.mp h with rfl | h
        · exact ⟨d, List.mem_cons_self, ho⟩
        · exact later h

/-- Every correction that is picked is that of a finding. -/
theorem exists_of_mem_select {ds : List Diagnostic} {c : Correction} (h : c ∈ select ds) :
    ∃ d ∈ ds, d.fix = some c :=
  exists_of_mem_choices h

/-- Corrections that do not overlap stand one after another, also where one of them only
inserts something. -/
theorem before_of_le {a b : Correction} (hab : a.start ≤ b.start) (h : overlaps a b = false)
    (hb : b.start ≤ b.stop) : Before a b := by
  rw [Bool.eq_false_iff, Ne, overlaps_iff] at h
  exact ⟨by omega, by omega⟩

/-- The corrections that are picked, in the order of their places, stand one after
another, and one pass over the text puts them in. -/
theorem exists_applyAll_eq_splice {t : Text} {ds : List Diagnostic}
    (h : ∀ d ∈ ds, ∀ c, d.fix = some c → c.start ≤ c.stop ∧ c.stop ≤ t.length) :
    ∃ cs : List Correction, cs.Perm (select ds) ∧ cs.Pairwise Before ∧
      (∀ c ∈ cs, c.Between 0 t.length) ∧ applyAll t ds = (splice 0 cs t, cs.length) := by
  have hperm : (backToFront (select ds)).reverse.Perm (select ds) :=
    (List.reverse_perm _).trans (List.mergeSort_perm ..)
  have hspan : ∀ c ∈ (backToFront (select ds)).reverse, c.start ≤ c.stop ∧ c.stop ≤ t.length := by
    intro c hc
    obtain ⟨d, hd, hfix⟩ := exists_of_mem_select (hperm.mem_iff.mp hc)
    exact h d hd c hfix
  have hsort : (backToFront (select ds)).reverse.Pairwise fun a b => a.start ≤ b.start :=
    List.pairwise_reverse.mpr (pairwise_backToFront (select ds))
  have hapart : (backToFront (select ds)).reverse.Pairwise fun a b => overlaps a b = false :=
    (hperm.pairwise_iff fun {a b} hab => (overlaps_comm b a).trans hab).mpr (pairwise_select ds)
  have hbefore : (backToFront (select ds)).reverse.Pairwise Before :=
    (hsort.and hapart).imp_of_mem fun _ hb hab => before_of_le hab.1 hab.2 (hspan _ hb).1
  have hbetween : ∀ c ∈ (backToFront (select ds)).reverse, c.Between 0 t.length := fun c hc =>
    ⟨Nat.zero_le _, (hspan c hc).1, (hspan c hc).2⟩
  refine ⟨_, hperm, hbefore, hbetween, ?_⟩
  have hfold := foldr_apply (n := 0) (x := []) (t := t) rfl hbefore
    fun c hc => by rw [Nat.zero_add]; exact hbetween c hc
  rw [List.foldr_reverse] at hfold
  rw [applyAll, hperm.length_eq]
  exact congrArg (·, _) hfold

end Worksheet.Correction
