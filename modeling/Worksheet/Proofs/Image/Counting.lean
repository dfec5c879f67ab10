import Mathlib.Data.Finset.Prod
import Mathlib.Order.Bounds.Defs
import Mathlib.Order.Interval.Finset.Nat
import Worksheet.Proofs.Image.Padding
import Worksheet.Proofs.Image.Span
import Worksheet.Proofs.Number.Digits

/-!
# How many findings there are about numbers

The findings about the numbers of images are counted by what the numbers are, and not
by the order in which the images stand (`Numbering.account_of_findings`):

* each number that is used more than once is told once, with its count;
* the lowest number is told if it is not the first one;
* each repetition is a gap, and so is each step from a run of consecutive numbers to the
  next one (`Numbering.length_gaps`).

Only the spans, and whether they are accepted, depend on the order: a finding has the
span of the last image with its number.
-/

namespace Worksheet

/-! ## Runs of consecutive numbers -/

namespace Numbering

section Runs

variable {ns : Finset Nat} {r : Nat × Nat} {m n : Nat}

/-- A maximal run of consecutive numbers, from the lowest one to the highest one. -/
@[mk_iff]
structure IsRun (ns : Finset Nat) (r : Nat × Nat) : Prop where
  le : r.1 ≤ r.2
  subset : Finset.Icc r.1 r.2 ⊆ ns
  opens : ∀ n ∈ ns, n + 1 ≠ r.1
  closes : r.2 + 1 ∉ ns

instance (ns : Finset Nat) : DecidablePred (IsRun ns) :=
  fun r => decidable_of_iff' _ (isRun_iff ns r)

/-- The maximal runs of consecutive numbers. -/
def runs (ns : Finset Nat) : Finset (Nat × Nat) := (ns ×ˢ ns).filter (IsRun ns)

theorem mem_runs : r ∈ runs ns ↔ IsRun ns r := by
  rw [runs, Finset.mem_filter, Finset.mem_product, and_iff_right_iff_imp]
  intro h
  exact ⟨h.subset (Finset.left_mem_Icc.mpr h.le), h.subset (Finset.right_mem_Icc.mpr h.le)⟩

/-- The numbers that follow no other one: those that a run starts with. -/
def heads (ns : Finset Nat) : Finset Nat := ns.filter fun a => ∀ n ∈ ns, n + 1 ≠ a

theorem mem_heads : m ∈ heads ns ↔ m ∈ ns ∧ ∀ n ∈ ns, n + 1 ≠ m := Finset.mem_filter

/-- A run goes on up to the first number that is missing. -/
theorem exists_run (hm : m ∈ heads ns) : ∃ n, IsRun ns (m, n) := by
  obtain ⟨hmem, hopens⟩ := mem_heads.mp hm
  have hends : ∃ k, m + k + 1 ∉ ns := by
    refine ⟨ns.sup id, fun h => ?_⟩
    have hle : m + ns.sup id + 1 ≤ ns.sup id := Finset.le_sup (f := id) h
    omega
  refine ⟨m + Nat.find hends, Nat.le_add_right .., fun a ha => ?_, hopens, Nat.find_spec hends⟩
  obtain ⟨hma, ham⟩ := Finset.mem_Icc.mp ha
  rcases Nat.eq_or_lt_of_le hma with rfl | hlt
  · exact hmem
  · have hbefore : ¬ m + (a - m - 1) + 1 ∉ ns := Nat.find_min hends (by simp only at ham; omega)
    rw [not_not] at hbefore
    convert hbefore using 1
    omega

/-- A run is told by the number that it starts with. -/
theorem IsRun.snd_le {r' : Nat × Nat} (h : IsRun ns r) (h' : IsRun ns r') (heq : r.1 = r'.1) :
    r'.2 ≤ r.2 := by
  by_contra hlt
  refine h.closes (h'.subset (Finset.mem_Icc.mpr ?_))
  have := h.le
  omega

theorem card_runs (ns : Finset Nat) : (runs ns).card = (heads ns).card := by
  refine Finset.card_bij (fun r _ => r.1) (fun r hr => ?_) (fun r hr r' hr' heq => ?_) fun m hm => ?_
  · have h := mem_runs.mp hr
    exact mem_heads.mpr ⟨h.subset (Finset.left_mem_Icc.mpr h.le), h.opens⟩
  · have h := mem_runs.mp hr
    have h' := mem_runs.mp hr'
    exact Prod.ext heq ((h'.snd_le h heq.symm).antisymm (h.snd_le h' heq))
  · obtain ⟨n, hn⟩ := exists_run hm
    exact ⟨(m, n), mem_runs.mpr hn, rfl⟩

/-- In front of higher numbers, a number starts a run, which the next number then
no longer does. -/
theorem heads_insert (hlow : ∀ n ∈ ns, m < n) :
    heads (insert m ns) = insert m ((heads ns).erase (m + 1)) := by
  ext a
  rw [mem_heads, Finset.mem_insert, Finset.forall_mem_insert, Finset.mem_insert, Finset.mem_erase,
    mem_heads]
  constructor
  · rintro ⟨rfl | ha, hnext, hopens⟩
    · exact .inl rfl
    · exact .inr ⟨hnext.symm, ha, hopens⟩
  · rintro (rfl | ⟨hnext, ha, hopens⟩)
    · refine ⟨.inl rfl, by omega, fun n hn => ?_⟩
      have := hlow n hn
      omega
    · exact ⟨.inr ha, hnext.symm, hopens⟩

end Runs

/-! ## Gaps -/

/-- In ascending order, the gaps are the repetitions and the steps between runs. -/
theorem length_gapsIn {m : Nat} {rest : List Nat} (h : (m :: rest).Pairwise (· ≤ ·)) :
    (gapsIn (m :: rest)).length + 1 + (m :: rest).toFinset.card =
      (m :: rest).length + (heads (m :: rest).toFinset).card := by
  induction rest generalizing m with
  | nil => simp [gapsIn, heads, Finset.filter_singleton]
  | cons n rest ih =>
    obtain ⟨hle, hrest⟩ := List.pairwise_cons.mp h
    have hcount := ih hrest
    rw [gapsIn, List.length_append, List.length_cons]
    rcases Nat.eq_or_lt_of_le (hle n List.mem_cons_self) with rfl | hlt
    · have hset : (m :: m :: rest).toFinset = (m :: rest).toFinset := by simp
      rw [if_neg (by omega), hset, List.length_singleton]
      omega
    · -- All numbers of the rest are higher, so that the number is new.
      have hlow : ∀ k ∈ (n :: rest).toFinset, m < k := by
        intro k hk
        rcases List.mem_cons.mp (List.mem_toFinset.mp hk) with rfl | hk
        · exact hlt
        · exact hlt.trans_le ((List.pairwise_cons.mp hrest).1 k hk)
      have hnew : m ∉ (n :: rest).toFinset := fun hm => (hlow m hm).false
      have hhead : m ∉ (heads (n :: rest).toFinset).erase (m + 1) := fun hm =>
        hnew (mem_heads.mp (Finset.mem_of_mem_erase hm)).1
      rw [List.toFinset_cons (a := m), heads_insert hlow, Finset.card_insert_of_notMem hnew,
        Finset.card_insert_of_notMem hhead]
      by_cases hnext : n = m + 1
      · -- The number goes on with the first run of the rest.
        have hmem : m + 1 ∈ heads (n :: rest).toFinset := by
          refine mem_heads.mpr ⟨by simp [hnext], fun k hk => ?_⟩
          have := hlow k hk
          omega
        have hpos := Finset.card_pos.mpr ⟨_, hmem⟩
        rw [if_pos hnext, List.length_nil, Finset.card_erase_of_mem hmem]
        omega
      · have hnot : m + 1 ∉ heads (n :: rest).toFinset := by
          intro hm
          have := (mem_heads.mp hm).1
          rcases List.mem_cons.mp (List.mem_toFinset.mp this) with he | hk
          · exact hnext he.symm
          · have := (List.pairwise_cons.mp hrest).1 _ hk
            omega
        rw [if_neg hnext, List.length_singleton, Finset.erase_eq_of_notMem hnot]
        omega

/-- There is a gap for each repetition, and one for each run but the first one. -/
theorem length_gaps {ns : List Nat} (h : ns ≠ []) :
    (gaps ns).length + 1 + ns.toFinset.card = ns.length + (runs ns.toFinset).card := by
  have hperm : (ordered ns).Perm ns := List.mergeSort_perm ..
  have hsort := pairwise_ordered ns
  rw [gaps, card_runs, ← List.toFinset_eq_of_perm _ _ hperm, ← hperm.length_eq]
  cases hns : ordered ns with
  | nil =>
    rw [hns] at hperm
    exact absurd hperm.nil_eq.symm h
  | cons m rest =>
    rw [hns] at hsort
    exact length_gapsIn hsort

/-! ## Repetitions and the lowest number -/

theorem mem_distinct {n : Nat} {ns : List Nat} : n ∈ distinct ns ↔ n ∈ ns := by
  refine ⟨mem_of_mem_distinct, fun h => ?_⟩
  fun_induction distinct ns with
  | case1 => exact h
  | case2 => exact h
  | case3 m rest ih =>
    rcases List.mem_cons.mp h with rfl | h
    · exact ih List.mem_cons_self
    · exact ih h
  | case4 m k rest _ ih =>
    rcases List.mem_cons.mp h with rfl | h
    · exact List.mem_cons_self
    · exact List.mem_cons_of_mem _ (ih h)

/-- Numbers in ascending order, each once, increase. -/
theorem pairwise_distinct {ns : List Nat} (h : ns.Pairwise (· ≤ ·)) : (distinct ns).Pairwise (· < ·) := by
  fun_induction distinct ns with
  | case1 => exact .nil
  | case2 => exact List.pairwise_singleton ..
  | case3 m rest ih => exact ih (List.pairwise_cons.mp h).2
  | case4 m n rest hne ih =>
    obtain ⟨hle, hrest⟩ := List.pairwise_cons.mp h
    refine List.pairwise_cons.mpr ⟨fun k hk => ?_, ih hrest⟩
    have hmn : m < n := lt_of_le_of_ne (hle n List.mem_cons_self) hne
    rcases List.mem_cons.mp (mem_distinct.mp hk) with rfl | hk
    · exact hmn
    · exact hmn.trans_le ((List.pairwise_cons.mp hrest).1 k hk)

/-- The numbers that are used more than once, in ascending order. -/
def repeated (ns : List Nat) : List Nat := (distinct (ordered ns)).filter fun n => 1 < ns.count n

theorem mem_repeated {n : Nat} {ns : List Nat} : n ∈ repeated ns ↔ 1 < ns.count n := by
  rw [repeated, List.mem_filter, decide_eq_true_eq, and_iff_right_iff_imp]
  intro h
  exact mem_distinct.mpr (List.mem_mergeSort.mpr (List.count_pos_iff.mp (by omega)))

theorem pairwise_repeated (ns : List Nat) : (repeated ns).Pairwise (· < ·) :=
  (pairwise_distinct (pairwise_ordered ns)).filter _

/-- The lowest number comes first in ascending order. -/
theorem exists_lowest {ns : List Nat} (h : ns ≠ []) :
    ∃ low, IsLeast {n | n ∈ ns} low ∧ (ordered ns).head? = some low := by
  have hsort := pairwise_ordered ns
  have hmem {n : Nat} : n ∈ ordered ns ↔ n ∈ ns := List.mem_mergeSort
  cases hns : ordered ns with
  | nil =>
    have hperm : (ordered ns).Perm ns := List.mergeSort_perm ..
    rw [hns] at hperm
    exact absurd hperm.nil_eq.symm h
  | cons low rest =>
    rw [hns] at hsort hmem
    refine ⟨low, ⟨hmem.mp List.mem_cons_self, fun n hn => ?_⟩, rfl⟩
    rcases List.mem_cons.mp (hmem.mpr hn) with rfl | hn
    · exact Nat.le_refl _
    · exact (List.pairwise_cons.mp hsort).1 n hn

theorem ordered_eq_of_perm {ns os : List Nat} (hperm : os.Perm ns) (hsort : os.Pairwise (· ≤ ·)) :
    ordered ns = os :=
  ((List.mergeSort_perm ..).trans hperm.symm).eq_of_pairwise' (pairwise_ordered ns) hsort

/-- What is wrong with numbers does not depend on their order. -/
theorem problems_eq_of_perm {first : Int} {ns ns' : List Nat} (h : ns'.Perm ns) :
    problems first ns' = problems first ns := by
  have hordered : ordered ns' = ordered ns :=
    ordered_eq_of_perm ((List.mergeSort_perm ..).trans h.symm) (pairwise_ordered ns)
  have hcount (n : Nat) : ns'.count n = ns.count n := h.count_eq n
  simp only [problems, duplicates, wrongStart, gaps, hordered, hcount]

/-- The problems of one kind. -/
theorem filter_code {ps : List Problem} {c : Code} (h : ∀ p ∈ ps, p.code = c) (c' : Code) :
    ps.filter (·.code = c') = if c = c' then ps else [] := by
  split
  · rename_i hc
    exact List.filter_eq_self.mpr fun p hp => decide_eq_true ((h p hp).trans hc)
  · rename_i hc
    exact List.filter_eq_nil_iff.mpr fun p hp hp' => hc ((h p hp).symm.trans (of_decide_eq_true hp'))

/-- Problems are sorted by their kind. -/
theorem filter_problems (first : Int) (ns : List Nat) (c : Code) :
    (problems first ns).filter (·.code = c) =
      (if .imageDuplicateNumber = c then duplicates ns else []) ++
        (if .imageNumberStart = c then wrongStart first ns else []) ++
        (if .imageNumberGap = c then gaps ns else []) := by
  have hduplicates : ∀ p ∈ duplicates ns, p.code = .imageDuplicateNumber := by
    intro p hp
    obtain ⟨n, -, rfl⟩ := List.mem_map.mp hp
    rfl
  have hstart : ∀ p ∈ wrongStart first ns, p.code = .imageNumberStart := by
    intro p hp
    rw [wrongStart] at hp
    split at hp
    · exact absurd hp List.not_mem_nil
    · split at hp
      · exact absurd hp List.not_mem_nil
      · rw [List.mem_singleton.mp hp]
        rfl
  have hgaps : ∀ p ∈ gaps ns, p.code = .imageNumberGap := by
    intro p hp
    obtain ⟨_, m, n, _, -, -, rfl⟩ := mem_gapsIn.mp hp
    rfl
  rw [problems, List.filter_append, List.filter_append, filter_code hduplicates, filter_code hstart,
    filter_code hgaps]

/-! ## The last image with a number -/

/-- The number of an image, if it has one that can be read. -/
def number? (i : Image) : Option Nat := (Image.number i.src).toOption.join

/-- The numbers of the images that have one. -/
def numbers (images : List Image) : List Nat := images.filterMap number?

/-- An image with its number, if it has one that can be read. -/
def numbered? (i : Image) : Option (Nat × Image) := (number? i).map (·, i)

/-- An image is the last one with a number. -/
def IsLast (images : List Image) (n : Nat) (i : Image) : Prop :=
  ∃ before behind, images = before ++ i :: behind ∧ number? i = some n ∧
    ∀ j ∈ behind, number? j ≠ some n

variable {images images' : List Image} {ps : List (Nat × Image)} {n : Nat} {i : Image}

theorem IsLast.mem (h : IsLast images n i) : i ∈ images := by
  obtain ⟨before, behind, rfl, -⟩ := h
  exact List.mem_append_right before List.mem_cons_self

theorem numbered?_eq_some_iff {p : Nat × Image} :
    numbered? i = some p ↔ number? i = some p.1 ∧ i = p.2 := by
  rw [numbered?]
  cases number? i <;> simp [Prod.ext_iff]

theorem numbered_eq_filterMap (h : numbered images = .ok ps) : ps = images.filterMap numbered? := by
  induction images generalizing ps with
  | nil =>
    obtain rfl := Except.ok.inj h
    rfl
  | cons i is ih =>
    rw [numbered] at h
    obtain ⟨n?, hn, h⟩ := bind_eq_ok.mp h
    have hnumber : number? i = n? := by rw [number?, hn]; rfl
    rw [List.filterMap_cons, numbered?, hnumber]
    cases n? with
    | none => exact ih h
    | some n =>
      obtain ⟨rest, hrest, h⟩ := bind_eq_ok.mp h
      obtain rfl := Except.ok.inj h
      exact congrArg _ (ih hrest)

theorem map_fst_numbered (h : numbered images = .ok ps) : ps.map (·.1) = numbers images := by
  rw [numbered_eq_filterMap h, List.map_filterMap, numbers]
  refine List.filterMap_congr fun i _ => ?_
  rw [numbered?]
  cases number? i <;> rfl

theorem lastWith?_eq_some_iff (h : numbered images = .ok ps) :
    lastWith? ps n = some i ↔ IsLast images n i := by
  rw [lastWith?, Option.map_eq_some_iff, numbered_eq_filterMap h]
  constructor
  · rintro ⟨p, hfind, rfl⟩
    obtain ⟨hn, front, back, hsplit, hfront⟩ := List.find?_eq_some_iff_append.mp hfind
    rw [List.reverse_eq_append_iff, List.reverse_cons, List.append_assoc, List.singleton_append] at hsplit
    obtain ⟨before, rest, rfl, -, hrest⟩ := List.filterMap_eq_append_iff.mp hsplit
    obtain ⟨skipped, j, behind, rfl, -, hj, hbehind⟩ := List.filterMap_eq_cons_iff.mp hrest
    obtain ⟨hj, rfl⟩ := numbered?_eq_some_iff.mp hj
    simp only [decide_eq_true_eq] at hn
    refine ⟨before ++ skipped, behind, by rw [List.append_assoc], hn ▸ hj, fun k hk hkn => ?_⟩
    have hmem : (n, k) ∈ front.reverse := by
      rw [← hbehind]
      exact List.mem_filterMap.mpr ⟨k, hk, numbered?_eq_some_iff.mpr ⟨hkn, rfl⟩⟩
    simpa using hfront _ (List.mem_reverse.mp hmem)
  · rintro ⟨before, behind, rfl, hi, hbehind⟩
    have hi' : numbered? i = some (n, i) := numbered?_eq_some_iff.mpr ⟨hi, rfl⟩
    refine ⟨(n, i), List.find?_eq_some_iff_append.mpr ⟨by simp,
      (behind.filterMap numbered?).reverse, (before.filterMap numbered?).reverse, ?_, fun p hp => ?_⟩, rfl⟩
    · rw [List.filterMap_append, List.filterMap_cons_some hi', List.reverse_append,
        List.reverse_cons, List.append_assoc, List.singleton_append]
    · obtain ⟨k, hk, hp⟩ := List.mem_filterMap.mp (List.mem_reverse.mp hp)
      obtain ⟨hkn, -⟩ := numbered?_eq_some_iff.mp hp
      have hne : p.1 ≠ n := fun he => hbehind k hk (he ▸ hkn)
      simpa using hne

/-! ## Findings -/

/-- What a finding says, apart from where. -/
def told (d : Diagnostic) : Severity × Code × Text := (d.severity, d.code, d.message)

/-- A finding tells a problem, at the last image with the number in question. -/
structure Tells (images : List Image) (s : Settings) (p : Problem) (d : Diagnostic) : Prop where
  severity : d.severity = p.severity
  code : d.code = p.code
  message : p.message s.images = .ok d.message
  last : ∃ i, IsLast images p.subject i ∧ (d.start : Int) = i.start ∧ (d.stop : Int) = i.stop

variable {s : Settings} {p : Problem} {d : Diagnostic} {ds ds' : List Diagnostic}

/-- A finding is given if its message can be written and the last image with the
number does not start before the text. -/
theorem finding_eq_ok_iff (hlast : lastWith? ps p.subject = some i) :
    finding s ps p = .ok d ↔ ∃ message, p.message s.images = .ok message ∧ 0 ≤ i.start ∧
      d = { severity := p.severity, code := p.code, message, source := s.source, rule := Images.ruleName,
            start := i.start.toNat, stop := i.stop.toNat } := by
  have hstop : 0 ≤ i.start → 0 ≤ i.stop := fun h => by rw [Image.stop]; omega
  rw [finding, bind_eq_ok]
  refine exists_congr fun message => and_congr_right fun _ => ?_
  rw [hlast, Option.getD_some, bind_eq_ok]
  constructor
  · rintro ⟨span, hspan, hd⟩
    obtain ⟨⟨hstart, -⟩, rfl⟩ := checkedSpan_eq_ok_iff.mp hspan
    exact ⟨hstart, (Except.ok.inj hd).symm⟩
  · rintro ⟨hstart, rfl⟩
    exact ⟨_, checkedSpan_eq_ok_iff.mpr ⟨⟨hstart, hstop hstart⟩, rfl⟩, rfl⟩

theorem findings_eq_mapM (h : numbered images = .ok ps) {problems : List Problem}
    (hproblems : Numbering.problems s.images.firstNumber (ps.map (·.1)) = problems) :
    findings images s = problems.mapM (finding s ps) := by
  rw [findings, h, ← hproblems]
  rfl

theorem exists_findings_of_isOk (h : numbered images = .ok ps) {problems : List Problem}
    (hproblems : Numbering.problems s.images.firstNumber (ps.map (·.1)) = problems)
    (hok : (problems.mapM (finding s ps)).isOk = true) : ∃ ds, findings images s = .ok ds := by
  rw [findings_eq_mapM h hproblems]
  exact exists_eq_ok_of_isOk hok

theorem tells_of_finding (h : numbered images = .ok ps) (hp : p.subject ∈ ps.map (·.1))
    (hd : finding s ps p = .ok d) : Tells images s p d := by
  obtain ⟨i, hlast, -⟩ := exists_lastWith? hp
  obtain ⟨message, hmessage, hstart, rfl⟩ := (finding_eq_ok_iff hlast).mp hd
  refine ⟨rfl, rfl, hmessage, i, (lastWith?_eq_some_iff h).mp hlast, Int.toNat_of_nonneg hstart,
    Int.toNat_of_nonneg ?_⟩
  rw [Image.stop]
  omega

/-- The findings tell the problems, one for one. -/
theorem tells_of_findings (h : findings images s = .ok ds) :
    List.Forall₂ (Tells images s) (problems s.images.firstNumber (numbers images)) ds := by
  obtain ⟨ps, hps, h⟩ := bind_eq_ok.mp h
  rw [← map_fst_numbered hps]
  have hall := mapM_eq_ok.mp h
  exact List.forall₂_iff_get.mpr ⟨hall.length_eq, fun k hk hk' =>
    tells_of_finding hps (subject_mem (List.get_mem ..)) ((List.forall₂_iff_get.mp hall).2 k hk hk')⟩

/-- What findings tell is given by the problems. -/
theorem told_of_tells {problems : List Problem} (h : List.Forall₂ (Tells images s) problems ds) :
    problems.mapM (fun p => (p.message s.images).map fun m => (p.severity, p.code, m)) =
      .ok (ds.map told) := by
  rw [mapM_eq_ok, List.forall₂_map_right_iff]
  refine h.imp fun p d hd => ?_
  rw [hd.message, told, hd.severity, hd.code]
  rfl

/-- What the findings about numbers amount to. -/
structure Account (images : List Image) (s : Settings) (ds : List Diagnostic) : Prop where
  /-- There is one error for each number that is used more than once, in ascending order. -/
  duplicates : ∃ twice : List Nat, twice.Pairwise (· < ·) ∧
    (∀ n, n ∈ twice ↔ 1 < (numbers images).count n) ∧
    (ds.filter (·.code = .imageDuplicateNumber)).map told = twice.map fun n =>
      (.error, .imageDuplicateNumber, lit "Duplicate image number: " ++ decimal n ++ lit " is used " ++
        decimal ((numbers images).count n) ++ lit " times")
  /-- There is one warning if the lowest number is not the first one. -/
  start : ∃ low, IsLeast {n | n ∈ numbers images} low ∧
    (ds.filter fun d => d.severity = .warning ∧ d.code = .imageNumberStart).length =
      if (low : Int) = s.images.firstNumber then 0 else 1
  /-- There is one warning for each repetition, and for each run but the first one. -/
  gaps : ((ds.filter fun d => d.severity = .warning ∧ d.code = .imageNumberGap).length : Int) =
    ((numbers images).length - (numbers images).toFinset.card) +
      ((runs (numbers images).toFinset).card - 1)
  /-- The findings tell the problems, each at the last image with its number. -/
  tells : List.Forall₂ (Tells images s) (problems s.images.firstNumber (numbers images)) ds

/-- The findings of one kind tell the problems of this kind. -/
theorem tells_filter {problems : List Problem} (h : List.Forall₂ (Tells images s) problems ds) (c : Code) :
    List.Forall₂ (Tells images s) (problems.filter (·.code = c)) (ds.filter (·.code = c)) :=
  List.rel_filter (fun p d hd => by simp only [hd.code]) h

/-- Findings of a kind that only warns are counted by the problems of this kind. -/
theorem length_filter_warning {problems : List Problem}
    (h : List.Forall₂ (Tells images s) problems ds) {c : Code} (hc : c ≠ .imageDuplicateNumber) :
    (ds.filter fun d => d.severity = .warning ∧ d.code = c).length =
      (problems.filter (·.code = c)).length := by
  refine (List.Forall₂.length_eq (List.rel_filter (fun p d hd => ?_) h)).symm
  simp only [hd.code, hd.severity, decide_eq_true_eq, iff_and_self]
  rintro rfl
  cases p with
  | duplicate n count => exact absurd rfl hc
  | wrongStart n => rfl
  | gap m n => rfl

theorem account_of_findings (h : findings images s = .ok ds) (hne : numbers images ≠ []) :
    Account images s ds := by
  have htells := tells_of_findings h
  obtain ⟨low, hlow, hhead⟩ := exists_lowest hne
  refine ⟨⟨repeated (numbers images), pairwise_repeated _, fun n => mem_repeated, ?_⟩,
    ⟨low, hlow, ?_⟩, ?_, htells⟩
  · have hduplicates := tells_filter htells .imageDuplicateNumber
    simp only [filter_problems, reduceCtorEq, if_true, if_false, List.append_nil] at hduplicates
    have hmap : Numbering.duplicates (numbers images) = (repeated (numbers images)).map fun n =>
        .duplicate n ((numbers images).count n) := rfl
    rw [hmap, List.forall₂_map_left_iff] at hduplicates
    rw [← List.forall₂_eq_eq_eq, List.forall₂_map_left_iff, List.forall₂_map_right_iff]
    refine hduplicates.flip.imp fun d n hd => ?_
    obtain ⟨t, ht, hmessage⟩ := bind_eq_ok.mp hd.message
    obtain ⟨-, rfl⟩ := writeInteger_eq_ok_iff.mp ht
    rw [told, hd.severity, hd.code, ← Except.ok.inj hmessage, signedDecimal_natCast]
    rfl
  · rw [length_filter_warning htells (by decide), filter_problems, wrongStart, hhead]
    by_cases hfirst : (low : Int) = s.images.firstNumber <;> simp [hfirst]
  · rw [length_filter_warning htells (by decide), filter_problems]
    have := length_gaps hne
    simp only [reduceCtorEq, if_true, if_false, List.nil_append]
    omega

/-- On another order of the images there are findings unless the last image with one
of the numbers in question starts before the text. -/
theorem exists_findings_iff_of_perm (h : findings images s = .ok ds) (hperm : images'.Perm images) :
    (∃ ds', findings images' s = .ok ds') ↔
      ∀ p ∈ problems s.images.firstNumber (numbers images), ∀ i, IsLast images' p.subject i → 0 ≤ i.start := by
  have htells := tells_of_findings h
  obtain ⟨ps, hps, -⟩ := bind_eq_ok.mp h
  obtain ⟨ps', hps'⟩ := exists_numbered_iff.mpr fun i hi =>
    exists_numbered_iff.mp ⟨ps, hps⟩ i (hperm.mem_iff.mp hi)
  have hnumbers : (ps'.map (·.1)).Perm (numbers images) := by
    rw [map_fst_numbered hps']
    exact hperm.filterMap _
  rw [findings_eq_mapM hps' (problems_eq_of_perm hnumbers), exists_mapM_eq_ok_iff]
  refine forall₂_congr fun p hp => ?_
  obtain ⟨i, hlast, -⟩ := exists_lastWith? (hnumbers.mem_iff.mpr (subject_mem hp))
  obtain ⟨m, hm⟩ : ∃ m, p.message s.images = .ok m := by
    obtain ⟨m, hm⟩ := exists_mapM_eq_ok_iff.mp ⟨_, told_of_tells htells⟩ p hp
    cases hmessage : p.message s.images with
    | ok m => exact ⟨m, rfl⟩
    | error e => simp [hmessage, Except.map] at hm
  constructor
  · rintro ⟨d, hd⟩ j hj
    obtain rfl := Option.some.inj (hlast.symm.trans ((lastWith?_eq_some_iff hps').mpr hj))
    obtain ⟨-, -, hstart, -⟩ := (finding_eq_ok_iff hlast).mp hd
    exact hstart
  · intro hstart
    exact ⟨_, (finding_eq_ok_iff hlast).mpr
      ⟨m, hm, hstart i ((lastWith?_eq_some_iff hps').mp hlast), rfl⟩⟩

/-- What the findings say does not depend on the order of the images. -/
theorem told_eq_of_perm (h : findings images s = .ok ds) (h' : findings images' s = .ok ds')
    (hperm : images'.Perm images) : ds'.map told = ds.map told := by
  have hnumbers : (numbers images').Perm (numbers images) := hperm.filterMap _
  have htold := told_of_tells (tells_of_findings h')
  rw [problems_eq_of_perm hnumbers, told_of_tells (tells_of_findings h)] at htold
  exact (Except.ok.inj htold).symm

/-- The findings about the numbers of images are counted by the numbers. On another order
of the images they say the same, unless there are none because the last image with one of
the numbers in question then starts before the text. -/
theorem counted_findings (h : findings images s = .ok ds) (hne : numbers images ≠ []) :
    Account images s ds ∧ ∀ images', images'.Perm images →
      ((∃ ds', findings images' s = .ok ds') ↔
        ∀ p ∈ problems s.images.firstNumber (numbers images), ∀ i, IsLast images' p.subject i →
          0 ≤ i.start) ∧
      ∀ ds', findings images' s = .ok ds' → ds'.map told = ds.map told :=
  ⟨account_of_findings h hne, fun _ hperm =>
    ⟨exists_findings_iff_of_perm h hperm, fun _ h' => told_eq_of_perm h h' hperm⟩⟩

/-- Two images share a number, and a number is left out. -/
theorem counted_findings_gap :
    ∃ ds, findings [⟨[], lit "a/3.png", 0, false⟩, ⟨[], lit "a/1.png", 7, false⟩,
        ⟨[], lit "a/3.png", 14, false⟩] {} = .ok ds ∧
      Account [⟨[], lit "a/3.png", 0, false⟩, ⟨[], lit "a/1.png", 7, false⟩,
        ⟨[], lit "a/3.png", 14, false⟩] {} ds ∧
      ∃ ds', findings [⟨[], lit "a/1.png", 7, false⟩, ⟨[], lit "a/3.png", 0, false⟩,
        ⟨[], lit "a/3.png", 14, false⟩] {} = .ok ds' ∧ ds'.map told = ds.map told := by
  have hordered : ordered [3, 1, 3] = [1, 3, 3] := ordered_eq_of_perm (by decide) (by decide)
  have hproblems : problems 1 [3, 1, 3] = [.duplicate 3 2, .gap 1 3, .gap 3 3] := by
    rw [problems, duplicates, wrongStart, gaps, hordered]
    rfl
  have hnumbered : numbered [⟨[], lit "a/3.png", 0, false⟩, ⟨[], lit "a/1.png", 7, false⟩,
      ⟨[], lit "a/3.png", 14, false⟩] = .ok [(3, ⟨[], lit "a/3.png", 0, false⟩),
        (1, ⟨[], lit "a/1.png", 7, false⟩), (3, ⟨[], lit "a/3.png", 14, false⟩)] := by
    decide +kernel
  obtain ⟨ds, h⟩ := exists_findings_of_isOk (s := {}) hnumbered hproblems (by decide +kernel)
  obtain ⟨haccount, hperm⟩ := counted_findings h (by decide +kernel)
  obtain ⟨hexists, htold⟩ := hperm _ (.swap ..)
  obtain ⟨ds', h'⟩ := hexists.mpr fun p _ i hi => by
    have hstart : ∀ j ∈ [(⟨[], lit "a/1.png", 7, false⟩ : Image), ⟨[], lit "a/3.png", 0, false⟩,
      ⟨[], lit "a/3.png", 14, false⟩], 0 ≤ j.start := by decide
    exact hstart i hi.mem
  exact ⟨ds, h, haccount, ds', h', htold ds' h'⟩

/-- Of two images with the same number, one starts before the text: there are findings
only if it does not come last. -/
theorem not_told_eq_of_perm :
    ¬ ∀ (images : List Image) (s : Settings) (ds : List Diagnostic), findings images s = .ok ds →
      numbers images ≠ [] → ∀ images', images'.Perm images →
        ∃ ds', findings images' s = .ok ds' ∧ ds'.map told = ds.map told := by
  intro h
  have hordered : ordered [1, 1] = [1, 1] := ordered_eq_of_perm (.refl _) (by decide)
  have hproblems : problems 1 [1, 1] = [.duplicate 1 2, .gap 1 1] := by
    rw [problems, duplicates, wrongStart, gaps, hordered]
    rfl
  have hnumbered : numbered [⟨[], lit "a/1.png", -100, false⟩, ⟨[], lit "a/1.png", 0, false⟩] =
      .ok [(1, ⟨[], lit "a/1.png", -100, false⟩), (1, ⟨[], lit "a/1.png", 0, false⟩)] := by
    decide +kernel
  obtain ⟨ds, hds⟩ := exists_findings_of_isOk (s := {}) hnumbered hproblems (by decide +kernel)
  obtain ⟨ds', hds', -⟩ := h _ {} ds hds (by decide +kernel) _ (.swap ..)
  -- In the other order, the last image starts before the text.
  have hstart := (exists_findings_iff_of_perm hds (.swap ..)).mp ⟨ds', hds'⟩ (.duplicate 1 2)
    (by rw [show numbers _ = [1, 1] by decide +kernel, hproblems]; exact List.mem_cons_self)
    ⟨[], lit "a/1.png", -100, false⟩
    ⟨[⟨[], lit "a/1.png", 0, false⟩], [], rfl, by decide +kernel, List.forall_mem_nil _⟩
  exact absurd hstart (by decide)

end Numbering

end Worksheet
