import Worksheet.Image.Rule
import Worksheet.Proofs.Image.Numbering
import Worksheet.Proofs.Image.Shape
import Worksheet.Proofs.Image.Typo

/-!
# Where findings about images point to

Every finding about images can be traced back to the text:

* `Typo.exists_of_mem_findings`: a finding about a path is one about a mistyped tag
  in the window around its first place (`Typo.exists_of_typoReport`), or about the
  bare path (`Typo.exists_of_strayFinding`);
* `Folder.exists_of_mem_findings`, `Numbering.exists_of_mem_findings`: the other
  findings have the span of an image.
-/

namespace Worksheet

/-! ## Tags -/

namespace Image

/-- An image tag starts with `<i`. -/
theorem IsTag.front {attr u src : Text} (h : IsTag attr u src) :
    ∃ c v, u = '<' :: c :: v ∧ isLetter 'i' c = true := by
  obtain ⟨o, b, x, n, z, rfl, ho, -⟩ := h
  obtain ⟨lt, o, rfl, hlt, ho⟩ := Text.Spells.front (a := '<') (x := lit "img") ho
  obtain ⟨i, o, rfl, hi, -⟩ := Text.Spells.front (a := 'i') (x := lit "mg") ho
  obtain rfl := eq_of_isLetter_angle hlt
  exact ⟨i, _, rfl, hi⟩

/-- Every image is a tag where it starts in the text. -/
theorem exists_tag_of_mem_all {t : Text} {i : Image} (hi : i ∈ all t) :
    ∃ k : Nat, i.start = k ∧ i.fullText <+: t.drop k ∧ ∃ attr, IsTag attr i.fullText i.src := by
  have hwith {attr : Text} {misspelt : Bool} (h : i ∈ allWith attr misspelt t) :
      ∃ k : Nat, i.start = k ∧ i.fullText <+: t.drop k ∧ ∃ attr, IsTag attr i.fullText i.src := by
    obtain ⟨m, hm, rfl⟩ := List.mem_map.mp h
    obtain ⟨hpre, hreads⟩ := Pattern.mem_scan hm
    obtain ⟨src, hgs, htag⟩ := isTag_of_reads hreads
    refine ⟨m.start, rfl, hpre, attr, ?_⟩
    rw [Match.group, hgs]
    exact htag
  rcases List.mem_append.mp hi with h | h
  · exact hwith h
  · exact hwith h

/-- The span of an image. -/
theorem bounds_of_mem_all {t : Text} {i : Image} (hi : i ∈ all t) :
    ∃ k : Nat, i.start = k ∧ i.stop = (k + i.fullText.length : Nat) ∧ i.fullText ≠ [] ∧
      i.fullText <+: t.drop k := by
  obtain ⟨k, hk, hpre, attr, htag⟩ := exists_tag_of_mem_all hi
  obtain ⟨c, v, hu, -⟩ := htag.front
  refine ⟨k, hk, ?_, ?_, hpre⟩
  · rw [stop, hk, Int.natCast_add]
  · rw [hu]
    exact List.cons_ne_nil _ _

end Image

/-- A span is accepted if it does not start or end before the text. -/
theorem checkedSpan_eq_ok_iff {a b : Int} {span : Nat × Nat} :
    checkedSpan a b = .ok span ↔ (0 ≤ a ∧ 0 ≤ b) ∧ span = (a.toNat, b.toNat) := by
  by_cases ha : a < 0
  · have hab : ¬ (0 ≤ a ∧ 0 ≤ b) := fun h => absurd h.1 (by omega)
    by_cases hb : b < 0 <;> simp [checkedSpan, ha, hb, hab]
  · by_cases hb : b < 0
    · have hab : ¬ (0 ≤ a ∧ 0 ≤ b) := fun h => absurd h.2 (by omega)
      simp [checkedSpan, ha, hb, hab]
    · have hab : 0 ≤ a ∧ 0 ≤ b := by omega
      simp [checkedSpan, ha, hb, hab, eq_comm]

/-! ## Folders -/

/-- A finding about a folder has the span of an image, which its correction
replaces as a whole. -/
theorem Folder.exists_of_mem_findings {images : List Image} {folder : Text} {s : Settings}
    {ds : List Diagnostic} (h : findings images folder s = .ok ds) {x : Diagnostic} (hx : x ∈ ds) :
    ∃ i ∈ images, misplaced folder i = true ∧ (x.start : Int) = i.start ∧ (x.stop : Int) = i.stop ∧
      x.code = .imageFolder ∧
      x.fix = if i.misspelt then none else some ⟨x.start, x.stop, correctedTag folder i, none⟩ := by
  obtain ⟨i, hi, hfinding⟩ := exists_of_mem_mapM h hx
  obtain ⟨himage, hmisplaced⟩ := List.mem_filter.mp hi
  obtain ⟨span, hspan, hfinding⟩ := bind_eq_ok.mp hfinding
  obtain ⟨⟨hstart, hstop⟩, rfl⟩ := checkedSpan_eq_ok_iff.mp hspan
  obtain rfl := Except.ok.inj hfinding
  exact ⟨i, himage, hmisplaced, Int.toNat_of_nonneg hstart, Int.toNat_of_nonneg hstop, rfl, rfl⟩

/-! ## Numbers -/

namespace Numbering

theorem mem_numbered {images : List Image} {numbers : List (Nat × Image)}
    (h : numbered images = .ok numbers) {p : Nat × Image} (hp : p ∈ numbers) :
    p.2 ∈ images ∧ Image.number p.2.src = .ok (some p.1) := by
  induction images generalizing numbers with
  | nil =>
    obtain rfl := Except.ok.inj h
    exact absurd hp List.not_mem_nil
  | cons i is ih =>
    rw [numbered] at h
    obtain ⟨n?, hn, h⟩ := bind_eq_ok.mp h
    cases n? with
    | none =>
      obtain ⟨himage, hnumber⟩ := ih h hp
      exact ⟨List.mem_cons_of_mem _ himage, hnumber⟩
    | some n =>
      obtain ⟨rest, hrest, h⟩ := bind_eq_ok.mp h
      obtain rfl := Except.ok.inj h
      rcases List.mem_cons.mp hp with rfl | hp
      · exact ⟨List.mem_cons_self, hn⟩
      · obtain ⟨himage, hnumber⟩ := ih hrest hp
        exact ⟨List.mem_cons_of_mem _ himage, hnumber⟩

theorem mem_of_mem_distinct {n : Nat} {numbers : List Nat} (h : n ∈ distinct numbers) :
    n ∈ numbers := by
  fun_induction distinct numbers with
  | case1 => exact h
  | case2 => exact h
  | case3 n rest ih => exact List.mem_cons_of_mem _ (ih h)
  | case4 m n rest _ ih =>
    rcases List.mem_cons.mp h with rfl | h
    · exact List.mem_cons_self
    · exact List.mem_cons_of_mem _ (ih h)

/-- A gap is a place where a number is not followed by the next one. -/
theorem mem_gapsIn {p : Problem} {numbers : List Nat} :
    p ∈ gapsIn numbers ↔
      ∃ xs m n ys, numbers = xs ++ m :: n :: ys ∧ n ≠ m + 1 ∧ p = .gap m n := by
  fun_induction gapsIn numbers with
  | case1 => simp
  | case2 m =>
    constructor
    · exact fun h => absurd h List.not_mem_nil
    · rintro ⟨xs, m', n, ys, h, -⟩
      have := congrArg List.length h
      simp only [List.length_append, List.length_cons, List.length_nil] at this
      omega
  | case3 m n rest ih =>
    rw [List.mem_append, ih]
    constructor
    · rintro (h | ⟨xs, m', n', ys, h, hne, rfl⟩)
      · split at h
        · exact absurd h List.not_mem_nil
        · rename_i hne
          exact ⟨[], m, n, rest, rfl, hne, List.mem_singleton.mp h⟩
      · exact ⟨m :: xs, m', n', ys, by rw [h, List.cons_append], hne, rfl⟩
    · rintro ⟨xs, m', n', ys, h, hne, rfl⟩
      cases xs with
      | nil =>
        obtain ⟨rfl, hrest⟩ := List.cons_eq_cons.mp h
        obtain ⟨rfl, -⟩ := List.cons_eq_cons.mp hrest
        rw [if_neg hne]
        exact .inl (List.mem_singleton_self _)
      | cons x xs =>
        obtain ⟨-, h⟩ := List.cons_eq_cons.mp h
        exact .inr ⟨xs, m', n', ys, h, hne, rfl⟩

/-- What is wrong is wrong with one of the numbers. -/
theorem subject_mem {first : Int} {numbers : List Nat} {p : Problem} (h : p ∈ problems first numbers) :
    p.subject ∈ numbers := by
  have hordered {n : Nat} (hn : n ∈ ordered numbers) : n ∈ numbers := List.mem_mergeSort.mp hn
  rw [problems, List.mem_append, List.mem_append] at h
  rcases h with (h | h) | h
  · obtain ⟨n, hn, rfl⟩ := List.mem_map.mp h
    exact hordered (mem_of_mem_distinct (List.mem_of_mem_filter hn))
  · rw [wrongStart] at h
    split at h
    · exact absurd h List.not_mem_nil
    · rename_i n hn
      split at h
      · exact absurd h List.not_mem_nil
      · obtain rfl := List.mem_singleton.mp h
        exact hordered (List.mem_of_mem_head? hn)
  · obtain ⟨xs, m, n, ys, hns, -, rfl⟩ := mem_gapsIn.mp h
    refine hordered ?_
    rw [hns]
    exact List.mem_append_right _ (List.mem_cons_of_mem _ List.mem_cons_self)

/-- A number that occurs has a last image. -/
theorem exists_lastWith? {numbers : List (Nat × Image)} {n : Nat} (h : n ∈ numbers.map (·.1)) :
    ∃ i, lastWith? numbers n = some i ∧ (n, i) ∈ numbers := by
  obtain ⟨p, hp, rfl⟩ := List.mem_map.mp h
  cases hfind : numbers.reverse.find? (·.1 = p.1) with
  | none =>
    have := List.find?_eq_none.mp hfind p (List.mem_reverse.mpr hp)
    exact absurd (decide_eq_true rfl) this
  | some q =>
    have hq := List.find?_some hfind
    simp only [decide_eq_true_eq] at hq
    refine ⟨q.2, by rw [lastWith?, hfind]; rfl, ?_⟩
    rw [← hq]
    exact List.mem_reverse.mp (List.mem_of_find?_eq_some hfind)

/-- A finding about a number has the span of an image. -/
theorem exists_of_mem_findings {images : List Image} {s : Settings} {ds : List Diagnostic}
    (h : findings images s = .ok ds) {x : Diagnostic} (hx : x ∈ ds) :
    ∃ i ∈ images, ∃ p : Problem, (x.start : Int) = i.start ∧ (x.stop : Int) = i.stop ∧
      x.code = p.code ∧ x.fix = none := by
  obtain ⟨numbers, hnumbers, h⟩ := bind_eq_ok.mp h
  obtain ⟨p, hp, hfinding⟩ := exists_of_mem_mapM h hx
  obtain ⟨i, hlast, hi⟩ := exists_lastWith? (subject_mem hp)
  obtain ⟨message, -, hfinding⟩ := bind_eq_ok.mp hfinding
  rw [hlast, Option.getD_some] at hfinding
  obtain ⟨span, hspan, hfinding⟩ := bind_eq_ok.mp hfinding
  obtain ⟨⟨hstart, hstop⟩, rfl⟩ := checkedSpan_eq_ok_iff.mp hspan
  obtain rfl := Except.ok.inj hfinding
  exact ⟨i, (mem_numbered hnumbers hi).1, p, Int.toNat_of_nonneg hstart, Int.toNat_of_nonneg hstop,
    rfl, rfl⟩

end Numbering

/-! ## Mistyped tags and bare paths -/

/-- What is read of a tag that goes on: characters inside of it, and the bracket that closes
it. -/
theorem reads_remainder_iff {u : Text} {gs : List Text} :
    ((Pattern.most fun c => c != '<' && c != '>').seq (Pattern.exactly (lit ">"))).Reads u gs ↔
      (∃ x, u = x ++ ['>'] ∧ '<' ∉ x ∧ '>' ∉ x) ∧ gs = [] := by
  rw [Pattern.reads_most_seq]
  simp only [Bool.and_eq_true, bne_iff_ne]
  constructor
  · rintro ⟨x, _, rfl, hx, h⟩
    obtain ⟨rfl, rfl⟩ := Pattern.reads_exactly.mp h
    exact ⟨⟨x, rfl, fun hm => (hx _ hm).1 rfl, fun hm => (hx _ hm).2 rfl⟩, rfl⟩
  · rintro ⟨⟨x, rfl, hopen, hclose⟩, rfl⟩
    exact ⟨x, _, rfl, fun c hc => ⟨ne_of_mem_of_not_mem hc hopen, ne_of_mem_of_not_mem hc hclose⟩,
      Pattern.reads_exactly.mpr ⟨rfl, rfl⟩⟩

/-- A tag that goes on in a text ends behind the first bracket from there on, if this is a `>`;
otherwise it is not closed. -/
theorem tagEnd_cases {t : Text} {n : Nat} (h : n ≤ t.length) :
    (∃ x v, t.drop n = x ++ '>' :: v ∧ '<' ∉ x ∧ '>' ∉ x ∧ tagEnd t n = (n + x.length + 1 : Nat)) ∨
    (∀ x v, t.drop n = x ++ '>' :: v → '<' ∉ x → '>' ∈ x) ∧ tagEnd t n = n := by
  have hn : (min (n : Int) t.length).toNat = n := by omega
  simp only [tagEnd, hn]
  split
  · rename_i hnone
    refine .inr ⟨fun x v hxv hopen => by_contra fun hclose => ?_, rfl⟩
    refine Pattern.matchAt_eq_none_iff.mp hnone _ _
      (reads_remainder_iff.mpr ⟨⟨x, rfl, hopen, hclose⟩, rfl⟩) ⟨v, ?_⟩
    rw [hxv, List.append_assoc, List.singleton_append]
  · rename_i m hm
    obtain ⟨hstart, ⟨v, hv⟩, hreads⟩ := Pattern.matchAt_eq_some hm
    obtain ⟨⟨x, htext, hopen, hclose⟩, -⟩ := reads_remainder_iff.mp hreads
    rw [htext, List.append_assoc, List.singleton_append] at hv
    refine .inl ⟨x, v, hv.symm, hopen, hclose, ?_⟩
    rw [Match.stop, hstart, htext, List.length_append, List.length_singleton, Nat.add_assoc]

/-- A tag that goes on in a text ends between there and the end of the text. -/
theorem tagEnd_bounds {t : Text} {n : Nat} (h : n ≤ t.length) :
    (n : Int) ≤ tagEnd t n ∧ tagEnd t n ≤ t.length := by
  rcases tagEnd_cases h with ⟨x, v, hxv, -, -, hend⟩ | ⟨-, hend⟩
  · have hlen := congrArg List.length hxv
    rw [List.length_drop, List.length_append, List.length_cons] at hlen
    omega
  · omega

namespace Typo

/-- A mistyped tag starts with a `<` in front of an `i` or of white space. -/
theorem front_of_reads {p : Pattern} (hp : p ∈ patterns) {u : Text} {gs : List Text}
    (h : p.Reads u gs) :
    ∃ c v, u = '<' :: c :: v ∧ (isLetter 'i' c = true ∨ isBlank c = true) := by
  rw [patterns_eq, List.mem_append, List.mem_singleton] at hp
  rcases hp with hp | rfl
  · obtain ⟨name, hname, rfl⟩ := List.mem_map.mp hp
    obtain ⟨⟨o, b, a, rfl, ho, -⟩, -⟩ := reads_namePattern_iff.mp h
    have hi : ∃ x, name = '<' :: 'i' :: x := by
      simp only [names, List.mem_cons, List.not_mem_nil, or_false] at hname
      rcases hname with rfl | rfl | rfl | rfl <;> exact ⟨_, rfl⟩
    obtain ⟨x, rfl⟩ := hi
    obtain ⟨lt, o, rfl, hlt, ho⟩ := ho.front
    obtain ⟨i, o, rfl, hi, -⟩ := ho.front
    obtain rfl := eq_of_isLetter_angle hlt
    exact ⟨i, _, rfl, .inl hi⟩
  · obtain ⟨⟨b, o, a, rfl, hb, ho, -⟩, -⟩ := reads_misattributed_iff.mp h
    cases b with
    | nil =>
      obtain ⟨i, o, rfl, hi, -⟩ := Text.Spells.front (a := 'i') (x := lit "mg") ho
      exact ⟨i, _, rfl, .inl hi⟩
    | cons c b => exact ⟨c, _, rfl, .inr (hb c List.mem_cons_self)⟩

/-- A path is not empty. -/
theorem ne_nil_of_reads_path {u : Text} {gs : List Text} (h : pathPattern.Reads u gs) : u ≠ [] := by
  obtain ⟨c, v, rfl, -⟩ := (Pattern.opens_oneOrMore isWord).group.seq _ h
  exact List.cons_ne_nil c v

theorem ne_nil_of_mem_paths {t : Text} {m : Match} (h : m ∈ pathPattern.scan t) : m.text ≠ [] :=
  ne_nil_of_reads_path (Pattern.mem_scan h).2

variable {t : Text} {s : Settings}

/-- Every finding is about the first place of a path of the text that belongs to no
image: it is about a mistyped tag, or about the bare path. -/
theorem exists_of_mem_findings {images : List Image} {x : Diagnostic} (h : x ∈ findings t images s) :
    ∃ m ∈ pathPattern.scan t, (∀ i ∈ images, ¬ m.text <:+: i.src) ∧
      ∃ n, Text.offsetOf? m.text t = some n ∧
        ((∃ r, typoReport t s m.text n = some r ∧ r.1 = x) ∨ x = strayFinding t s m.text n) := by
  obtain ⟨r, hr, rfl⟩ := List.mem_map.mp h
  rcases mem_foldl_step hr with h | ⟨p, hp, h⟩
  · exact absurd h List.not_mem_nil
  · obtain ⟨hpath, himages⟩ := List.mem_filter.mp hp
    rw [Bool.not_eq_true', ← Bool.not_eq_true, accounted_iff] at himages
    obtain ⟨n, hn⟩ := exists_offset_of_mem_paths hpath
    obtain ⟨m, hm, rfl⟩ := mem_paths.mp hpath
    rw [typoOf, hn, Option.getD_some] at h
    exact ⟨m, hm, fun i hi hinfix => himages ⟨i, hi, hinfix⟩, n, hn,
      h.imp (fun h => ⟨r, h, rfl⟩) (congrArg Prod.fst)⟩

/-- What is reported as a mistyped tag looks like one, lies in the window around
the path, and is corrected up to the end of the tag. -/
theorem exists_of_typoReport {p : Text} {n : Nat} {r : Report} (h : typoReport t s p n = some r) :
    ∃ u, (∃ q ∈ patterns, ∃ gs, q.Reads u gs) ∧ u ≠ [] ∧ u <+: t.drop r.1.start ∧
      r.1 = typoFinding t s p r.1.start (r.1.start + u.length) ∧
      n ≤ r.1.start + s.images.typoWindow ∧
      r.1.start + u.length ≤ n + p.length + s.images.typoWindow := by
  rw [typoReport, Text.window_eq] at h
  obtain ⟨m, hm, rfl⟩ := Option.map_eq_some_iff.mp h
  obtain ⟨q, hq, hfind⟩ := List.exists_of_findSome?_eq_some hm
  obtain ⟨-, hpre, hreads, -⟩ := Pattern.find?_eq_some hfind
  obtain ⟨c, v, hu, -⟩ := front_of_reads hq hreads
  have hne : m.text ≠ [] := by
    rw [hu]
    exact List.cons_ne_nil _ _
  rw [List.drop_drop] at hpre
  have hlen := Text.le_length_of_prefix_drop hpre hne
  rw [List.length_take] at hlen
  have hstart : (typoFinding t s p (((n - s.images.typoWindow : Nat) : Int).toNat + m.start)
      (((n - s.images.typoWindow : Nat) : Int).toNat + m.start + m.text.length)).start =
        n - s.images.typoWindow + m.start := rfl
  refine ⟨m.text, ⟨q, hq, m.groups, hreads⟩, hne, ?_, rfl, ?_, ?_⟩
  · rw [hstart]
    exact hpre.trans ((List.take_prefix _ t).drop _)
  · rw [hstart]
    omega
  · rw [hstart]
    omega

/-- What is reported as a bare path contains the path, with at most the padding
around it. -/
theorem exists_of_strayFinding {p : Text} {n : Nat} (hp : p <+: t.drop n) (hne : p ≠ []) :
    ∃ a b : Text, a.length ≤ s.images.strayPadding ∧ b.length ≤ s.images.strayPadding ∧
      a ++ (p ++ b) <+: t.drop (strayFinding t s p n).start ∧
      (strayFinding t s p n).stop = (strayFinding t s p n).start + (a ++ (p ++ b)).length := by
  have hstart : (strayFinding t s p n).start = n - s.images.strayPadding := by
    simp only [strayFinding, Text.padded_eq, Int.toNat_natCast]
  have hstop : (strayFinding t s p n).stop = min t.length (n + p.length + s.images.strayPadding) := by
    simp only [strayFinding, Text.padded_eq, Int.toNat_natCast]
  have hlen := Text.le_length_of_prefix_drop hp hne
  obtain ⟨z, hz⟩ := hp
  have hzlen := congrArg List.length hz
  rw [List.length_append, List.length_drop] at hzlen
  have hfront : (t.take n).drop (n - s.images.strayPadding) ++ (p ++ z) =
      t.drop (n - s.images.strayPadding) := by
    conv_rhs => rw [← List.take_append_drop n t]
    rw [List.drop_append_of_le_length (by rw [List.length_take]; omega), hz]
  refine ⟨(t.take n).drop (n - s.images.strayPadding), z.take s.images.strayPadding, ?_,
    List.length_take_le _ _, ?_, ?_⟩
  · rw [List.length_drop, List.length_take]
    omega
  · rw [hstart, ← hfront, List.prefix_append_right_inj, List.prefix_append_right_inj]
    exact List.take_prefix _ z
  · simp only [hstart, hstop, List.length_append, List.length_drop, List.length_take]
    omega

end Typo

end Worksheet
