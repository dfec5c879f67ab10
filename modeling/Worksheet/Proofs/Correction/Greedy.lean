import Mathlib.Data.Finset.Filter
import Mathlib.Data.Finset.Range
import Worksheet.Proofs.Correction.Splice

/-!
# Which corrections are picked

`Correction.select` goes through the corrections of findings once and takes each one that
overlaps none of those taken before. What comes out is told by the conflicts between
corrections alone: there is exactly one set of places such that no two corrections at these
places are in conflict, and every other one is in conflict with an earlier one at them
(`greedy_iff_eq_picks`).

* `overlaps_iff_conflict`: what it is that the comparison of starts and ends finds out;
* `isSome_taken?_iff`: when a correction is taken, given those before it;
* `Greedy.eq`: a greedy choice is determined from the front to the back.
-/

namespace Worksheet.Correction

/-! ## Conflicts -/

/-- Whether a correction replaces the character at an offset. -/
def spans (c : Correction) (i : Nat) : Bool := c.start ≤ i && i < c.stop

/-- A correction that only inserts stands strictly inside the span of another one. -/
def Inside (a b : Correction) : Prop := a.start = a.stop ∧ b.start < a.start ∧ a.start < b.stop

/-- Two corrections are in conflict if they start at the same place, replace the same
character, or one of them inserts something into what the other one replaces. -/
def Conflict (a b : Correction) : Prop :=
  a.start = b.start ∨ (∃ i, a.spans i = true ∧ b.spans i = true) ∨ a.Inside b ∨ b.Inside a

theorem spans_iff {c : Correction} {i : Nat} : c.spans i = true ↔ c.start ≤ i ∧ i < c.stop := by
  rw [spans, Bool.and_eq_true, decide_eq_true_eq, decide_eq_true_eq]

/-- Corrections overlap if and only if they are in conflict. -/
theorem overlaps_iff_conflict {a b : Correction} (ha : a.start ≤ a.stop) (hb : b.start ≤ b.stop) :
    overlaps a b = true ↔ Conflict a b := by
  rw [overlaps_iff]
  constructor
  · rintro (h | ⟨hab, hba⟩)
    · exact .inl h
    · by_cases ha' : a.start = a.stop
      · exact .inr (.inr (.inl ⟨ha', by omega, hab⟩))
      by_cases hb' : b.start = b.stop
      · exact .inr (.inr (.inr ⟨hb', by omega, hba⟩))
      -- Both replace something, so they share the character at the later start.
      refine .inr (.inl ⟨max a.start b.start, spans_iff.mpr ?_, spans_iff.mpr ?_⟩)
      · omega
      · omega
  · rintro (h | ⟨i, hai, hbi⟩ | ⟨ha', hab⟩ | ⟨hb', hba⟩)
    · exact .inl h
    · have := spans_iff.mp hai
      have := spans_iff.mp hbi
      omega
    · omega
    · omega

theorem Conflict.symm {a b : Correction} (h : Conflict a b) : Conflict b a := by
  obtain h | ⟨i, hai, hbi⟩ | h | h := h
  · exact .inl h.symm
  · exact .inr (.inl ⟨i, hbi, hai⟩)
  · exact .inr (.inr (.inr h))
  · exact .inr (.inr (.inl h))

/-! ## Greedy choices -/

/-- The corrections of findings, one after another. -/
def offered (ds : List Diagnostic) : List Correction := ds.filterMap (·.fix)

/-- No two corrections at some places of a list are in conflict. -/
def Compatible (cs : List Correction) (K : Finset Nat) : Prop :=
  ∀ i ∈ K, ∀ j ∈ K, i < j → ∀ a b, cs[i]? = some a → cs[j]? = some b → ¬ Conflict a b

/-- Some places of a list of corrections are a greedy choice among them: no two of the
corrections there are in conflict, and every other one is in conflict with an earlier one
there. -/
structure Greedy (cs : List Correction) (K : Finset Nat) : Prop where
  within : ∀ i ∈ K, i < cs.length
  compatible : Compatible cs K
  dropped : ∀ j b, cs[j]? = some b → j ∉ K → ∃ i ∈ K, i < j ∧ ∃ a, cs[i]? = some a ∧ Conflict a b

variable {cs : List Correction} {K K' : Finset Nat}

/-- Where two greedy choices agree on the corrections in front, what the one holds is held
by the other. -/
theorem Greedy.mem_of_mem (h : Greedy cs K) (h' : Greedy cs K') {j : Nat}
    (hfront : ∀ i < j, i ∈ K' → i ∈ K) (hj : j ∈ K) : j ∈ K' := by
  by_contra hj'
  have hget := List.getElem?_eq_getElem (h.within j hj)
  obtain ⟨i, hi, hij, a, ha, hconflict⟩ := h'.dropped j _ hget hj'
  exact h.compatible i (hfront i hij hi) j hj hij a _ ha hget hconflict

/-- There is at most one greedy choice. -/
theorem Greedy.eq (h : Greedy cs K) (h' : Greedy cs K') : K = K' := by
  ext j
  induction j using Nat.strongRecOn with
  | ind j ih =>
    constructor
    · exact h.mem_of_mem h' fun i hij => (ih i hij).mpr
    · exact h'.mem_of_mem h fun i hij => (ih i hij).mp

/-- Nothing can be added to a greedy choice. -/
theorem Greedy.not_compatible_insert (h : Greedy cs K) {j : Nat} (hj : j < cs.length) (hK : j ∉ K) :
    ¬ Compatible cs (insert j K) := by
  intro hcompatible
  have hget := List.getElem?_eq_getElem hj
  obtain ⟨i, hi, hij, a, ha, hconflict⟩ := h.dropped j _ hget hK
  exact hcompatible i (Finset.mem_insert_of_mem hi) j (Finset.mem_insert_self j K) hij a _ ha hget
    hconflict

/-! ## The corrections that are picked -/

/-- The correction that is decided about. -/
def Choice.correction : Choice → Correction
  | taken c => c
  | passed _ c => c

@[simp] theorem taken?_taken (c : Correction) : (Choice.taken c).taken? = some c := rfl
@[simp] theorem taken?_passed (d : Diagnostic) (c : Correction) : (Choice.passed d c).taken? = none := rfl
@[simp] theorem correction_taken (c : Correction) : (Choice.taken c).correction = c := rfl
@[simp] theorem correction_passed (d : Diagnostic) (c : Correction) :
    (Choice.passed d c).correction = c := rfl

/-- The places of the corrections that are picked, among those of the findings. -/
def picks (ds : List Diagnostic) : Finset Nat :=
  (Finset.range (choices [] ds).length).filter fun i =>
    ((choices [] ds)[i]?.bind (·.taken?)).isSome

/-- The corrections at some places of a list. -/
def atPlaces (cs : List Correction) (K : Finset Nat) : List Correction :=
  (cs.zipIdx.filter fun x => x.2 ∈ K).map (·.1)

theorem taken?_eq_some_iff {x : Choice} {c : Correction} : x.taken? = some c ↔ x = .taken c := by
  cases x with
  | taken o => simp
  | passed d o => simp

/-- Every correction is decided about, in its turn. -/
theorem map_correction_choices (picked : List Correction) (ds : List Diagnostic) :
    (choices picked ds).map (·.correction) = offered ds := by
  induction ds generalizing picked with
  | nil => rfl
  | cons d ds ih =>
    rw [choices, offered]
    cases hd : d.fix with
    | none => rw [List.filterMap_cons_none hd, ih, offered]
    | some c =>
      rw [List.filterMap_cons_some hd]
      simp only
      split
      · exact congrArg (c :: ·) (ih picked)
      · exact congrArg (c :: ·) (ih (picked ++ [c]))

theorem getElem?_offered (ds : List Diagnostic) (i : Nat) :
    (offered ds)[i]? = (choices [] ds)[i]?.map (·.correction) := by
  rw [← map_correction_choices [] ds, List.getElem?_map]

theorem length_choices (ds : List Diagnostic) : (choices [] ds).length = (offered ds).length := by
  rw [← map_correction_choices [] ds, List.length_map]

/-- A correction is taken if and only if it overlaps none of those taken before. -/
theorem isSome_taken?_iff {picked : List Correction} {ds : List Diagnostic} {i : Nat} {x : Choice}
    (h : (choices picked ds)[i]? = some x) :
    x.taken?.isSome = true ↔
      ∀ o ∈ picked ++ ((choices picked ds).take i).filterMap (·.taken?), overlaps x.correction o = false := by
  induction ds generalizing picked i with
  | nil => exact absurd h.symm (Option.some_ne_none x)
  | cons d ds ih =>
    rw [choices] at h ⊢
    split at h
    · exact ih h
    · rename_i c _
      split at h
      · rename_i hoverlaps
        rw [if_pos hoverlaps]
        cases i with
        | zero =>
          obtain rfl := Option.some.inj h
          obtain ⟨o, ho, hco⟩ := List.any_eq_true.mp hoverlaps
          have hoverlap : ¬ overlaps c o = false := Bool.not_eq_false _ ▸ hco
          exact ⟨fun htaken => absurd htaken Bool.false_ne_true,
            fun hfree => absurd (hfree o (List.mem_append_left _ ho)) hoverlap⟩
        | succ i => exact ih h
      · rename_i hfree
        rw [if_neg hfree]
        cases i with
        | zero =>
          obtain rfl := Option.some.inj h
          rw [List.take_zero, List.filterMap_nil, List.append_nil]
          exact ⟨fun _ o ho => Bool.eq_false_iff.mpr fun hco => hfree (List.any_eq_true.mpr ⟨o, ho, hco⟩),
            fun _ => rfl⟩
        | succ i =>
          have := ih (i := i) h
          rwa [List.append_assoc] at this

theorem mem_picks {ds : List Diagnostic} {i : Nat} :
    i ∈ picks ds ↔ ∃ c, (choices [] ds)[i]? = some (.taken c) := by
  rw [picks, Finset.mem_filter, Finset.mem_range, Option.isSome_iff_exists]
  constructor
  · rintro ⟨-, c, hc⟩
    obtain ⟨x, hx, hxc⟩ := Option.bind_eq_some_iff.mp hc
    exact ⟨c, by rw [hx, taken?_eq_some_iff.mp hxc]⟩
  · rintro ⟨c, hc⟩
    exact ⟨(List.getElem?_eq_some_iff.mp hc).1, c, by rw [hc]; rfl⟩

/-- What has been taken before a place. -/
theorem mem_taken_before {xs : List Choice} {j : Nat} {c : Correction} :
    c ∈ (xs.take j).filterMap (·.taken?) ↔ ∃ i < j, xs[i]? = some (.taken c) := by
  rw [List.mem_filterMap]
  constructor
  · rintro ⟨x, hx, hxc⟩
    obtain rfl := taken?_eq_some_iff.mp hxc
    obtain ⟨i, hi⟩ := List.mem_iff_getElem?.mp hx
    rw [List.getElem?_take] at hi
    split at hi
    · exact ⟨i, ‹_›, hi⟩
    · exact nomatch hi
  · rintro ⟨i, hij, hi⟩
    refine ⟨.taken c, List.mem_iff_getElem?.mpr ⟨i, ?_⟩, rfl⟩
    rw [List.getElem?_take_of_lt hij, hi]

/-- The corrections that are picked are a greedy choice. -/
theorem greedy_picks {ds : List Diagnostic} (h : ∀ c ∈ offered ds, c.start ≤ c.stop) :
    Greedy (offered ds) (picks ds) := by
  have hordered {i : Nat} {c : Correction} (hc : (offered ds)[i]? = some c) : c.start ≤ c.stop :=
    h c (List.mem_of_getElem? hc)
  have hdecided {i : Nat} {c : Correction} (hc : (offered ds)[i]? = some c) :
      ∃ x, (choices [] ds)[i]? = some x ∧ x.correction = c := by
    rw [getElem?_offered] at hc
    exact Option.map_eq_some_iff.mp hc
  refine ⟨fun i hi => ?_, fun i hi j hj hij a b ha hb hconflict => ?_, fun j b hb hj => ?_⟩
  · obtain ⟨c, hc⟩ := mem_picks.mp hi
    rw [← length_choices]
    exact (List.getElem?_eq_some_iff.mp hc).1
  · obtain ⟨a', ha'⟩ := mem_picks.mp hi
    obtain ⟨b', hb'⟩ := mem_picks.mp hj
    have hxa := getElem?_offered ds i
    have hxb := getElem?_offered ds j
    rw [ha', ha] at hxa
    rw [hb', hb] at hxb
    obtain rfl : a = a' := Option.some.inj hxa
    obtain rfl : b = b' := Option.some.inj hxb
    have hfree := (isSome_taken?_iff hb').mp rfl a (mem_taken_before.mpr ⟨i, hij, ha'⟩)
    exact nomatch hfree.symm.trans ((overlaps_iff_conflict (hordered hb) (hordered ha)).mpr hconflict.symm)
  · obtain ⟨x, hx, rfl⟩ := hdecided hb
    have hpassed : ¬ x.taken?.isSome = true := fun hsome => by
      obtain ⟨c, hc⟩ := Option.isSome_iff_exists.mp hsome
      exact hj (mem_picks.mpr ⟨c, by rw [hx, taken?_eq_some_iff.mp hc]⟩)
    rw [isSome_taken?_iff hx] at hpassed
    simp only [List.nil_append, not_forall, Bool.not_eq_false] at hpassed
    obtain ⟨a, ha, hoverlaps⟩ := hpassed
    obtain ⟨i, hij, hi⟩ := mem_taken_before.mp ha
    have hget : (offered ds)[i]? = some a := by
      rw [getElem?_offered, hi]
      rfl
    exact ⟨i, mem_picks.mpr ⟨a, hi⟩, hij, a, hget,
      ((overlaps_iff_conflict (hordered hb) (hordered hget)).mp hoverlaps).symm⟩

/-- What is taken, read off the corrections by the places. -/
theorem filterMap_taken?_eq {xs : List Choice} {n : Nat} {K : Finset Nat}
    (h : ∀ i x, xs[i]? = some x → (n + i ∈ K ↔ x.taken?.isSome = true)) :
    xs.filterMap (·.taken?) = (((xs.map (·.correction)).zipIdx n).filter fun y => y.2 ∈ K).map (·.1) := by
  induction xs generalizing n with
  | nil => rfl
  | cons x xs ih =>
    have hx := h 0 x rfl
    have hxs := ih (n := n + 1) fun i y hy => by
      rw [Nat.add_assoc, Nat.add_comm 1]
      exact h (i + 1) y hy
    cases x with
    | taken c =>
      have hK : n ∈ K := hx.mpr rfl
      rw [List.filterMap_cons_some (taken?_taken c), hxs]
      simp [hK]
    | passed d c =>
      have hK : n ∉ K := fun hK => nomatch hx.mp hK
      rw [List.filterMap_cons_none (taken?_passed d c), hxs]
      simp [hK]

theorem select_eq_atPlaces (ds : List Diagnostic) : select ds = atPlaces (offered ds) (picks ds) := by
  rw [select, atPlaces, ← map_correction_choices [] ds]
  refine filterMap_taken?_eq fun i x hx => ?_
  rw [Nat.zero_add, mem_picks, hx, Option.isSome_iff_exists]
  exact exists_congr fun c => by rw [Option.some.injEq, taken?_eq_some_iff]

/-- Later findings are decided about after the earlier ones. -/
theorem choices_append (picked : List Correction) (ds es : List Diagnostic) :
    choices picked (ds ++ es) =
      choices picked ds ++ choices (picked ++ (choices picked ds).filterMap (·.taken?)) es := by
  induction ds generalizing picked with
  | nil => rw [choices, List.filterMap_nil, List.append_nil, List.nil_append, List.nil_append]
  | cons d ds ih =>
    rw [List.cons_append, choices, choices]
    split
    · exact ih picked
    · rename_i c _
      split
      · rw [List.cons_append, ih]
        rfl
      · rw [List.cons_append, ih, List.append_assoc]
        rfl

theorem mem_picks_append_iff (ds es : List Diagnostic) {i : Nat} (hi : i < (offered ds).length) :
    i ∈ picks (ds ++ es) ↔ i ∈ picks ds := by
  rw [← length_choices] at hi
  rw [mem_picks, mem_picks, choices_append, List.getElem?_append_left hi]

/-- The first correction is always taken. -/
theorem head?_select (ds : List Diagnostic) : (select ds).head? = (offered ds).head? := by
  induction ds with
  | nil => rfl
  | cons d ds ih =>
    cases hd : d.fix with
    | none =>
      rw [offered, List.filterMap_cons_none hd, ← offered, ← ih, select, choices, hd]
      rfl
    | some c =>
      rw [offered, List.filterMap_cons_some hd, select, choices, hd]
      rfl

/-- The corrections that are picked are the only greedy choice among those of the findings.
So nothing can be added to them, the first correction is one of them, and later findings
change nothing about the earlier ones. -/
theorem greedy_iff_eq_picks {ds : List Diagnostic} (h : ∀ c ∈ offered ds, c.start ≤ c.stop) :
    (∀ K, Greedy (offered ds) K ↔ K = picks ds) ∧
    select ds = atPlaces (offered ds) (picks ds) ∧
    (∀ j < (offered ds).length, j ∉ picks ds → ¬ Compatible (offered ds) (insert j (picks ds))) ∧
    (select ds).head? = (offered ds).head? ∧
    ∀ es, ∀ i < (offered ds).length, i ∈ picks (ds ++ es) ↔ i ∈ picks ds := by
  have hgreedy := greedy_picks h
  refine ⟨fun K => ⟨fun hK => hK.eq hgreedy, ?_⟩, select_eq_atPlaces ds,
    fun j hj hK => hgreedy.not_compatible_insert hj hK, head?_select ds,
    fun es i hi => mem_picks_append_iff ds es hi⟩
  rintro rfl
  exact hgreedy

/-- A finding with a correction between two offsets. -/
def proposal (start stop : Nat) (replacement : Text) : Diagnostic where
  severity := .warning
  code := .imageFolder
  message := []
  rule := []
  start
  stop
  fix := some ⟨start, stop, replacement, none⟩

/-- Corrections that only meet, in their ends, and others that stand in their way: one that
inserts something into a span, and one that starts where another one inserts something. -/
def crossing : List Diagnostic :=
  [proposal 8 13 (lit "3"), proposal 3 3 (lit " and"), proposal 0 3 (lit "ONE"),
   proposal 1 1 (lit "x"), proposal 3 7 (lit " 2"), proposal 13 13 (lit "!")]

theorem greedy_iff_eq_picks_crossing :
    (∀ c ∈ offered crossing, c.start ≤ c.stop) ∧
    (∀ K, Greedy (offered crossing) K ↔ K = {0, 1, 2, 5}) ∧
    select crossing = atPlaces (offered crossing) {0, 1, 2, 5} ∧
    (∀ j < (offered crossing).length, j ∉ ({0, 1, 2, 5} : Finset Nat) →
      ¬ Compatible (offered crossing) (insert j {0, 1, 2, 5})) ∧
    (select crossing).head? = (offered crossing).head? ∧
    ∀ es, ∀ i < (offered crossing).length, i ∈ picks (crossing ++ es) ↔ i ∈ ({0, 1, 2, 5} : Finset Nat) := by
  have hordered : ∀ c ∈ offered crossing, c.start ≤ c.stop := by decide
  have hpicks : picks crossing = {0, 1, 2, 5} := by decide
  have h := greedy_iff_eq_picks hordered
  rw [hpicks] at h
  exact ⟨hordered, h⟩

end Worksheet.Correction
