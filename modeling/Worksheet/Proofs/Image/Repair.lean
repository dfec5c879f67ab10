import Worksheet.Proofs.Image.Coverage

/-!
# Mistyped tags that stand alone

A mistyped tag with a path, in a text with no other tag and no other path, is found from its
`<` up to the quote behind the path, its correction leaves the right tag, and then there is
nothing more to find (`Typo.repaired`).

* `Typo.scan_quoted_path`: the path is the only one in the text;
* `Typo.all_isolated`: the mistyped tag is no image;
* `Typo.inWindow?_isolated`: whatever is found in a window around it is this tag.
-/

namespace Worksheet.Typo

open Image Pattern

variable {u v m p : Text} {gs : List Text}

/-! ## The text -/

/-- A tag up to its attribute that is mistyped: a mistyped name in front of an attribute, or
the right name in front of a mistyped attribute, with one space between them. -/
def IsMisspelling (m : Text) : Prop :=
  (∃ name ∈ names, ∃ attr ∈ attributes, m.Spells (name ++ ' ' :: attr)) ∨
    ∃ attr ∈ [lit "s", lit "sr", lit "rc", lit "scr"], m.Spells (lit "<img " ++ attr)

/-- A tag up to the quote behind its path. -/
def quoted (m p : Text) : Text := m ++ (lit "=\"" ++ (p ++ lit "\""))

/-- In a mistyped tag up to its attribute, only the `<` in front belongs to the syntax. -/
theorem IsMisspelling.plain (h : IsMisspelling m) :
    ∃ m', m = '<' :: m' ∧ m.length ≤ 10 ∧ '<' ∉ m' ∧ '=' ∉ m ∧ '/' ∉ m' := by
  obtain ⟨x, hx, hlen, hplain⟩ : ∃ x : Text, m.Spells ('<' :: x) ∧ x.length ≤ 9 ∧
      (x.all fun a => (letterForms a).all fun c => !(lit "<=/").contains c) = true := by
    rcases h with ⟨name, hname, attr, hattr, h⟩ | ⟨attr, hattr, h⟩
    · simp only [names, attributes, List.mem_cons, List.not_mem_nil, or_false] at hname hattr
      rcases hname with rfl | rfl | rfl | rfl <;> rcases hattr with rfl | rfl <;>
        exact ⟨_, h, by decide, by decide⟩
    · simp only [List.mem_cons, List.not_mem_nil, or_false] at hattr
      rcases hattr with rfl | rfl | rfl | rfl <;> exact ⟨_, h, by decide, by decide⟩
  obtain ⟨c, m', rfl, hc, hm'⟩ := hx.front
  obtain rfl := eq_of_isLetter_angle hc
  have hmem := hm'.forall hplain
  refine ⟨m', rfl, ?_, fun h => absurd (hmem _ h) (by decide), fun h => ?_,
    fun h => absurd (hmem _ h) (by decide)⟩
  · rw [List.length_cons, ← hm'.length_eq]
    omega
  · rcases List.mem_cons.mp h with h | h
    · exact absurd h (by decide)
    · exact absurd (hmem _ h) (by decide)

/-! ## The path -/

/-- In a text around a character that is in no path, there is no path where there is none
on either side. -/
theorem find?_append_cons {a b : Text} {c : Char} (hc : ∀ ⦃r gs⦄, pathPattern.Reads r gs → c ∉ r)
    (ha : pathPattern.find? a = none) (hb : pathPattern.find? b = none) :
    pathPattern.find? (a ++ c :: b) = none := by
  rw [find?_eq_none_iff] at ha hb ⊢
  intro r gs hr hpart
  exact (infix_or_infix_of_append_cons (hc hr) hpart).elim (ha r gs hr) (hb r gs hr)

/-- There is no path without a slash. -/
theorem find?_of_slash {t : Text} (h : '/' ∉ t) : pathPattern.find? t = none := by
  refine find?_eq_none_iff.mpr fun r gs hr hpart => h (hpart.subset ?_)
  obtain ⟨a, f, d, e, rfl, -⟩ := exists_of_reads_path hr
  simp

/-- In front of a quote, no path starts where there is none. -/
theorem barren_of_find? {x : Text} (h : pathPattern.find? x = none) : pathPattern.Barren (x ++ ['"']) := by
  rintro w ⟨a, ha⟩ hne r gs hr z hpre
  obtain ⟨w, c, rfl⟩ := (List.eq_nil_or_concat' w).resolve_left hne
  rw [← List.append_assoc] at ha
  obtain ⟨rfl, hc⟩ := List.append_inj' ha rfl
  obtain rfl := (List.cons_eq_cons.mp hc).1
  obtain ⟨y, hy⟩ := hpre
  rw [List.append_assoc] at hy
  obtain ⟨w', rfl, -⟩ := exists_of_append_eq hy (quote_not_mem_path hr)
  exact find?_eq_none_iff.mp h r gs hr ⟨a, w', List.append_assoc ..⟩

/-- A path in quotes is the only one of a text if there is none around it. -/
theorem scan_quoted_path {x y : Text} (hx : pathPattern.find? x = none) (hy : pathPattern.find? y = none)
    (hp : pathPattern.Reads p gs) :
    pathPattern.scan (x ++ '"' :: (p ++ '"' :: y)) = [⟨x.length + 1, p, gs⟩] := by
  have hstart : pathPattern.matchAt (x.length + 1) (p ++ '"' :: y) = some ⟨x.length + 1, p, gs⟩ := by
    have hpre : p <+: p ++ '"' :: y := List.prefix_append ..
    cases hm : pathPattern.matchAt (x.length + 1) (p ++ '"' :: y) with
    | none => exact absurd hpre (matchAt_eq_none_iff.mp hm p gs hp)
    | some m =>
      obtain ⟨hstart, hpre', hreads⟩ := matchAt_eq_some hm
      obtain ⟨htext, hgroups⟩ := single_pathPattern hreads hp hpre' hpre
      rw [← hstart, ← htext, ← hgroups]
  have hbehind : pathPattern.scanFrom 0 (Match.stop ⟨x.length + 1, p, gs⟩) ('"' :: y) = [] := by
    have hnone := find?_append_cons (a := []) (fun _ _ => quote_not_mem_path) (by decide) hy
    refine List.eq_nil_iff_forall_not_mem.mpr fun m hm => ?_
    obtain ⟨i, -, hpre, hreads⟩ := mem_scanFrom hm
    exact find?_eq_none_iff.mp hnone _ _ hreads (infix_of_prefix_drop hpre)
  have htext : x ++ '"' :: (p ++ '"' :: y) = (x ++ ['"']) ++ (p ++ '"' :: y) := by
    rw [List.append_assoc]
    rfl
  rw [Pattern.scan, htext, scanFrom_barren (barren_of_find? hx), Nat.zero_add, List.length_append,
    List.length_singleton, scanFrom_eq_cons hstart (ne_nil_of_reads_path hp), List.drop_left, hbehind]

/-- There is no angle bracket and no equals sign in a path. -/
theorem plain_of_reads_path (h : pathPattern.Reads p gs) : '<' ∉ p ∧ '>' ∉ p ∧ '=' ∉ p :=
  ⟨not_mem_path h, not_mem_of_reads_path (by decide) (by decide) (by decide) h,
    not_mem_of_reads_path (by decide) (by decide) (by decide) h⟩

/-- The path of a tag is the only one of a text if there is none around the tag. -/
theorem scan_isolated {m' : Text} (hm : m = '<' :: m') (hslash : '/' ∉ m')
    (hu : pathPattern.find? u = none) (hv : pathPattern.find? v = none) (hp : pathPattern.Reads p gs) :
    pathPattern.scan (u ++ (quoted m p ++ '>' :: v)) = [⟨u.length + m.length + 2, p, gs⟩] := by
  have hfront : pathPattern.find? (u ++ '<' :: (m' ++ ['='])) = none := by
    refine find?_append_cons (fun _ _ hr => (plain_of_reads_path hr).1) hu (find?_of_slash ?_)
    simpa using hslash
  have hback := find?_append_cons (a := []) (fun _ _ hr => (plain_of_reads_path hr).2.1) (by decide) hv
  have htext : u ++ (quoted m p ++ '>' :: v) =
      (u ++ '<' :: (m' ++ ['='])) ++ '"' :: (p ++ '"' :: '>' :: v) := by
    simp [hm, quoted, lit]
  rw [htext, hm]
  refine (scan_quoted_path hfront hback hp).trans ?_
  simp only [List.length_append, List.length_cons, List.length_nil]
  congr 2

/-! ## No image -/

/-- What is read in front of an equals sign and a quote is the tag up to its attribute,
unless it runs over the tag. -/
theorem eq_of_front {x r b : Text} (hx : '>' ∉ x) (hm : '=' ∉ m) (hp : '=' ∉ p)
    (h : x ++ (lit "=\"" ++ r) = quoted m p ++ '>' :: b) : x = m ∧ r = p ++ '"' :: '>' :: b := by
  have h' : m ++ '=' :: '"' :: (p ++ '"' :: '>' :: b) = x ++ '=' :: '"' :: r := by
    refine Eq.trans ?_ h.symm
    simp [quoted, lit]
  obtain ⟨y, rfl, hy⟩ := exists_of_append_eq h' hm
  cases y with
  | nil =>
    simp only [List.nil_append, List.cons.injEq, true_and] at hy
    exact ⟨List.append_nil m, hy.symm⟩
  | cons d y =>
    obtain ⟨-, hy⟩ := List.cons_eq_cons.mp hy
    have hy' : ('"' :: (p ++ ['"'])) ++ '>' :: b = y ++ '=' :: '"' :: r := by
      rw [List.cons_append, List.append_assoc]
      exact hy
    obtain ⟨z, rfl, hz⟩ := exists_of_append_eq hy' (by simpa using hp)
    cases z with
    | nil => exact absurd (List.cons_eq_cons.mp hz).1 (by decide)
    | cons e z =>
      obtain ⟨rfl, -⟩ := List.cons_eq_cons.mp hz
      exact absurd (by simp) hx

/-- A tag that is mistyped does not begin as an image tag with an attribute does. -/
theorem IsMisspelling.ne_append (h : IsMisspelling m) {attr y n : Text} (hattr : attr ∈ attributes)
    (hy : IsOpen y) (hn : n.Spells attr) : y ++ n ≠ m := by
  rintro rfl
  obtain ⟨o, b, x, rfl, ho, ⟨hb, hblank⟩, -⟩ := hy
  obtain ⟨c, b, rfl⟩ := List.exists_cons_of_ne_nil hb
  rcases h with ⟨name, hname, attr', hattr', h⟩ | ⟨attr', hattr', h⟩
  · -- Behind the right name there is a blank, where a mistyped one differs.
    have hfront : List.Forall₂ (fun q c => q c = true) ((lit "<img").map isLetter ++ [isBlank]) (o ++ [c]) :=
      List.rel_append ho.classes (.cons (hblank c List.mem_cons_self) .nil)
    have hmeets := h.meets (z := []) hfront (by simp)
    simp only [names, attributes, List.mem_cons, List.not_mem_nil, or_false] at hname hattr'
    rcases hname with rfl | rfl | rfl | rfl <;> rcases hattr' with rfl | rfl <;>
      exact absurd hmeets (by decide)
  · -- The attributes differ in front of their common end.
    have hback : n.Spells ((lit "<img " ++ attr').drop (o ++ (c :: b ++ x)).length) := by
      have := List.forall₂_drop (o ++ (c :: b ++ x)).length h
      rwa [List.drop_left] at this
    have hmeets := hback.meets (z := []) hn.classes (by simp)
    have hlonger : 5 ≤ (o ++ (c :: b ++ x)).length := by
      simp only [List.length_append, List.length_cons, ← ho.length_eq]
      show 5 ≤ 4 + _
      omega
    have hlen' : 5 + attr'.length = (o ++ (c :: b ++ x)).length + attr.length := by
      rw [hn.length_eq, ← List.length_append, ← h.length_eq, List.length_append]
      rfl
    obtain ⟨k, hk⟩ := Nat.exists_eq_add_of_le hlonger
    have hle : attr.length ≤ attr'.length := by omega
    obtain rfl : k = attr'.length - attr.length := by omega
    rw [hk] at hmeets
    simp only [attributes, List.mem_cons, List.not_mem_nil, or_false] at hattr hattr'
    rcases hattr with rfl | rfl <;> rcases hattr' with rfl | rfl | rfl | rfl <;>
      first
      | exact absurd hle (by decide)
      | exact absurd hmeets (by decide)

/-- In a text with one tag, which is mistyped, what begins with `<` begins where this
tag does. -/
theorem eq_of_isolated (hm : IsMisspelling m) (hu : '<' ∉ u) (hv : '<' ∉ v)
    (hp : pathPattern.Reads p gs) {a q : Text}
    (h : u ++ (quoted m p ++ '>' :: v) = a ++ '<' :: q) : a = u ∧ '<' :: q = quoted m p ++ '>' :: v := by
  obtain ⟨m', rfl, -, hangle, -⟩ := hm.plain
  have hrest : '<' ∉ m' ++ (lit "=\"" ++ (p ++ lit "\"")) ++ '>' :: v := by
    simp [hangle, (plain_of_reads_path hp).1, hv, lit]
  obtain ⟨rfl, hq⟩ := append_cons_unique hu hrest h
  exact ⟨rfl, congrArg (List.cons '<') hq.symm⟩

/-- A mistyped tag alone is no image. -/
theorem all_isolated (hm : IsMisspelling m) (hu : '<' ∉ u) (hv : '<' ∉ v) (hp : pathPattern.Reads p gs) :
    Image.all (u ++ (quoted m p ++ '>' :: v)) = [] := by
  obtain ⟨-, -, -, -, hequals, -⟩ := hm.plain
  refine List.eq_nil_iff_forall_not_mem.mpr fun i hi => ?_
  obtain ⟨attr, hattr, misspelt, hi⟩ : ∃ attr ∈ attributes, ∃ misspelt,
      i ∈ allWith attr misspelt (u ++ (quoted m p ++ '>' :: v)) := by
    rcases List.mem_append.mp hi with hi | hi
    · exact ⟨lit "src", by decide, false, hi⟩
    · exact ⟨lit "sc", by decide, true, hi⟩
  obtain ⟨a, h, z, b, hplaced⟩ := exists_placed hattr hi
  have hhead := hplaced.head.head
  obtain ⟨h', rfl⟩ := hhead.exists_cons
  obtain ⟨-, htag⟩ := eq_of_isolated hm hu hv hp hplaced.text
  have hclose := hhead.not_mem hattr
  obtain ⟨y, n, heq, hy, hn⟩ := hhead
  obtain ⟨n, e, rfl, hname, he⟩ := hn.exists_append
  obtain rfl := he.eq (by decide)
  rw [heq, ← List.append_assoc, List.mem_append, not_or] at hclose
  have hfront : y ++ n ++ (lit "=\"" ++ (i.src ++ (z ++ b))) = quoted m p ++ '>' :: v := by
    rw [← List.append_assoc, List.append_assoc y, ← heq]
    exact htag
  exact hm.ne_append hattr hy hname (eq_of_front hclose.1 hequals (plain_of_reads_path hp).2.2 hfront).1

/-! ## The window -/

/-- What a mistyped tag looks like up to its equals sign, and its value. -/
theorem exists_front_of_reads {q : Pattern} (hq : q ∈ patterns) {r : Text} {gs : List Text}
    (h : q.Reads r gs) :
    gs = [] ∧ ∃ x val : Text, r = x ++ (lit "=\"" ++ (val ++ lit "\"")) ∧ '>' ∉ x ∧ '"' ∉ val := by
  have spelled {n y : Text} (hn : n.Spells y)
      (hy : (y.all fun a => (letterForms a).all (· != '>')) = true) : '>' ∉ n := fun hc =>
    absurd (hn.forall hy _ hc) (by decide)
  have blank {b : Text} (hb : ∀ c ∈ b, isBlank c = true) : '>' ∉ b := fun hc => absurd (hb _ hc) (by decide)
  rw [patterns_eq, List.mem_append, List.mem_singleton] at hq
  rcases hq with hq | rfl
  · obtain ⟨name, hname, rfl⟩ := List.mem_map.mp hq
    obtain ⟨⟨o, b, _, rfl, ho, ⟨-, hb⟩, x, n, val, rfl, hx, hn, hval⟩, rfl⟩ := reads_namePattern_iff.mp h
    refine ⟨rfl, o ++ (b ++ (x ++ n)), val, by simp only [List.append_assoc], ?_, fun h => hval _ h rfl⟩
    have ho' : '>' ∉ o := by
      simp only [names, List.mem_cons, List.not_mem_nil, or_false] at hname
      rcases hname with rfl | rfl | rfl | rfl <;> exact spelled ho (by decide)
    have hn' : '>' ∉ n := hn.elim (spelled · (by decide)) (spelled · (by decide))
    simp only [List.mem_append, not_or]
    exact ⟨ho', blank hb, fun h => hx _ h rfl, hn'⟩
  · obtain ⟨⟨b, o, _, rfl, hb, ho, x, n, val, rfl, hx, hn, hval⟩, rfl⟩ := reads_misattributed_iff.mp h
    refine ⟨rfl, '<' :: (b ++ (o ++ (x ++ n))), val, by simp only [List.append_assoc, List.cons_append], ?_,
      fun h => hval _ h rfl⟩
    have hn' : '>' ∉ n := by
      rcases hn with hn | hn | hn | hn <;> exact spelled hn (by decide)
    simp only [List.mem_cons, List.mem_append, not_or]
    exact ⟨by decide, blank hb, spelled ho (by decide), fun h => hx _ h rfl, hn'⟩

/-- Whatever looks like a mistyped tag in a text with one tag is this tag. -/
theorem eq_of_reads_isolated (hm : IsMisspelling m) (hu : '<' ∉ u) (hv : '<' ∉ v)
    (hp : pathPattern.Reads p gs) {q : Pattern} (hq : q ∈ patterns) {r : Text} {hs : List Text}
    (h : q.Reads r hs) {j : Nat} (hpre : r <+: (u ++ (quoted m p ++ '>' :: v)).drop j) :
    j = u.length ∧ r = quoted m p ∧ hs = [] := by
  obtain ⟨-, -, -, -, hequals, -⟩ := hm.plain
  obtain ⟨c, r', rfl, -⟩ := front_of_reads hq h
  obtain ⟨rfl, x, val, hr, hx, hval⟩ := exists_front_of_reads hq h
  obtain ⟨w, hw⟩ := hpre
  have htext := (List.take_append_drop j (u ++ (quoted m p ++ '>' :: v))).symm
  rw [← hw] at htext
  obtain ⟨hfront, htag⟩ := eq_of_isolated hm hu hv hp htext
  have hlen : j ≤ (u ++ (quoted m p ++ '>' :: v)).length := by
    have := congrArg List.length hw
    simp only [List.length_append, List.length_cons, List.length_drop] at this ⊢
    omega
  have hj : j = u.length := by
    rw [← hfront, List.length_take, Nat.min_eq_left hlen]
  have hread : x ++ (lit "=\"" ++ (val ++ '"' :: w)) = quoted m p ++ '>' :: v := by
    rw [← htag]
    show _ = '<' :: c :: r' ++ w
    rw [hr]
    simp [lit]
  obtain ⟨rfl, hvalue⟩ := eq_of_front hx hequals (plain_of_reads_path hp).2.2 hread
  obtain ⟨rfl, -⟩ := append_cons_inj hval (quote_not_mem_path hp) hvalue
  exact ⟨hj, hr, rfl⟩

/-- A mistyped tag looks like one. -/
theorem exists_reads_quoted (hm : IsMisspelling m) (hp : '"' ∉ p) :
    ∃ q ∈ patterns, q.Reads (quoted m p) [] := by
  have hval : ∀ c ∈ p, c ≠ '"' := fun c hc e => hp (e ▸ hc)
  have hspace : ∀ c ∈ lit " ", isBlank c = true ∧ c ≠ '>' := List.forall_mem_singleton.mpr (by decide)
  rw [patterns_eq]
  rcases hm with ⟨name, hname, attr, hattr, h⟩ | ⟨attr, hattr, h⟩
  · obtain ⟨o, bn, rfl, ho, hbn⟩ := h.exists_append
    obtain ⟨b, n, rfl, hb, hn⟩ := Text.Spells.exists_append (x := lit " ") hbn
    obtain rfl := hb.eq (by decide)
    have hn' : n.Spells (lit "src") ∨ n.Spells (lit "sc") := by
      simp only [attributes, List.mem_cons, List.not_mem_nil, or_false] at hattr
      rcases hattr with rfl | rfl
      · exact .inl hn
      · exact .inr hn
    exact ⟨namePattern name, List.mem_append_left _ (List.mem_map_of_mem hname), reads_namePattern_iff.mpr
      ⟨⟨o, lit " ", n ++ (lit "=\"" ++ (p ++ lit "\"")), by simp [quoted], ho,
        ⟨by decide, fun c hc => (hspace c hc).1⟩, [], n, p, rfl, List.forall_mem_nil _, hn', hval⟩, rfl⟩⟩
  · obtain ⟨front, n, rfl, hfront, hn⟩ := h.exists_append
    obtain ⟨lt, ob, rfl, hlt, hob⟩ := Text.Spells.exists_append (x := lit "<") (y := lit "img ") hfront
    obtain ⟨o, b, rfl, ho, hb⟩ := Text.Spells.exists_append (x := lit "img") (y := lit " ") hob
    obtain rfl := hlt.eq (by decide)
    obtain rfl := hb.eq (by decide)
    have hn' : n.Spells (lit "s") ∨ n.Spells (lit "sr") ∨ n.Spells (lit "rc") ∨ n.Spells (lit "scr") := by
      simp only [List.mem_cons, List.not_mem_nil, or_false] at hattr
      rcases hattr with rfl | rfl | rfl | rfl
      · exact .inl hn
      · exact .inr (.inl hn)
      · exact .inr (.inr (.inl hn))
      · exact .inr (.inr (.inr hn))
    exact ⟨misattributed, List.mem_append_right _ List.mem_cons_self, reads_misattributed_iff.mpr
      ⟨⟨[], o, lit " " ++ (n ++ (lit "=\"" ++ (p ++ lit "\""))), by simp [quoted, lit],
        List.forall_mem_nil _, ho, lit " ", n, p, rfl, fun c hc => (hspace c hc).2, hn', hval⟩, rfl⟩⟩

/-- In a text with one tag, which is mistyped, the search for a mistyped tag ends there. -/
theorem inWindow?_isolated (hm : IsMisspelling m) (hu : '<' ∉ u) (hv : '<' ∉ v)
    (hp : pathPattern.Reads p gs) :
    inWindow? (u ++ (quoted m p ++ '>' :: v)) = some ⟨u.length, quoted m p, []⟩ := by
  obtain ⟨q, hq, hreads⟩ := exists_reads_quoted hm (quote_not_mem_path hp)
  have hsome : inWindow? (u ++ (quoted m p ++ '>' :: v)) ≠ none := by
    intro hnone
    have hfind := List.findSome?_eq_none_iff.mp hnone q hq
    refine find?_eq_none_iff.mp hfind _ _ hreads ⟨u, '>' :: v, ?_⟩
    rw [List.append_assoc]
  obtain ⟨w, hw⟩ := Option.ne_none_iff_exists'.mp hsome
  obtain ⟨q', hq', hfind⟩ := List.exists_of_findSome?_eq_some hw
  obtain ⟨-, hpre, hreads', -⟩ := find?_eq_some hfind
  obtain ⟨hstart, htext, hgroups⟩ := eq_of_reads_isolated hm hu hv hp hq' hreads' hpre
  rw [hw, ← hstart, ← htext, ← hgroups]

theorem length_quoted (m p : Text) : (quoted m p).length = m.length + p.length + 3 := by
  simp only [quoted, List.length_append]
  show m.length + (2 + (p.length + 1)) = _
  omega

/-- A window around the path that reaches the front of the tag shows the whole of it. -/
theorem exists_window {n r : Nat} (hn : n = u.length + m.length + 2) (hm : m.length ≤ 10) (hr : 12 ≤ r) :
    ∃ x y, x <:+ u ∧ y <+: v ∧ (u ++ (quoted m p ++ '>' :: v)).window n (n + p.length) r =
      (((u.length - x.length : Nat) : Int), x ++ (quoted m p ++ '>' :: y)) := by
  have hlen := length_quoted m p
  obtain ⟨k, hk⟩ : ∃ k, min (u ++ (quoted m p ++ '>' :: v)).length (n + p.length + r) =
      (u ++ (quoted m p ++ ['>'])).length + k := by
    refine Nat.exists_eq_add_of_le (Nat.le_min.mpr ?_)
    simp only [List.length_append, List.length_cons, List.length_nil]
    omega
  refine ⟨u.drop (n - r), v.take k, List.drop_suffix _ _, List.take_prefix _ _, ?_⟩
  have htext (y : Text) : u ++ (quoted m p ++ '>' :: y) = u ++ (quoted m p ++ ['>']) ++ y := by
    simp only [List.append_assoc, List.singleton_append]
  have hdrop : n - r ≤ u.length := by omega
  have hstart : u.length - (u.drop (n - r)).length = n - r := by
    rw [List.length_drop]
    omega
  rw [Text.window_eq, hk, hstart, htext v, List.take_length_add_append, ← htext,
    List.drop_append_of_le_length hdrop]

/-- The report on a mistyped tag that stands alone. -/
theorem typoReport_isolated (hm : IsMisspelling m) (hu : '<' ∉ u) (hv : '<' ∉ v)
    (hp : pathPattern.Reads p gs) {s : Settings} (hs : 12 ≤ s.images.typoWindow) {n : Nat}
    (hn : n = u.length + m.length + 2) :
    (typoReport (u ++ (quoted m p ++ '>' :: v)) s p n).map (·.1) =
      some (typoFinding (u ++ (quoted m p ++ '>' :: v)) s p u.length (u.length + (quoted m p).length)) := by
  obtain ⟨-, -, hlen, -⟩ := hm.plain
  obtain ⟨x, y, hx, hy, hwindow⟩ := exists_window (u := u) (v := v) (p := p) hn hlen hs
  have hfound := inWindow?_isolated hm (fun h => hu (hx.mem h)) (fun h => hv (hy.mem h)) hp
  have hxu := hx.length_le
  rw [typoReport, hwindow]
  simp only [hfound, Option.map_some, Int.toNat_natCast]
  rw [show u.length - x.length + x.length = u.length by omega]

/-! ## The correction -/

/-- A tag ends with the bracket that stands behind its quote. -/
theorem tagEnd_isolated (x v : Text) : tagEnd (x ++ '>' :: v) x.length = (x.length + 1 : Nat) := by
  have hlen : x.length ≤ (x ++ '>' :: v).length := by
    rw [List.length_append]
    exact Nat.le_add_right _ _
  rcases tagEnd_cases hlen with ⟨y, w, hyw, -, hclose, hend⟩ | ⟨hopen, -⟩
  · rw [List.drop_left] at hyw
    cases y with
    | nil => exact hend
    | cons c y =>
      obtain ⟨rfl, -⟩ := List.cons_eq_cons.mp hyw
      exact absurd List.mem_cons_self hclose
  · exact absurd (hopen [] v List.drop_left List.not_mem_nil) List.not_mem_nil

/-- The correction puts the right tag in the place of the mistyped one. -/
theorem apply_isolated (u v m p : Text) :
    Correction.apply (u ++ (quoted m p ++ '>' :: v))
        ⟨u.length, (u ++ quoted m p).length + 1, correctTag p, none⟩ =
      u ++ (correctTag p ++ v) := by
  have hback : u ++ (quoted m p ++ '>' :: v) = (u ++ quoted m p ++ ['>']) ++ v := by
    simp only [List.append_assoc, List.singleton_append]
  rw [Correction.apply, List.take_left, hback]
  show u ++ correctTag p ++ (_ ++ v).drop ((u ++ quoted m p).length + 1) = _
  rw [← List.length_singleton (a := '>'), ← List.length_append, List.drop_left, List.append_assoc]

theorem correctTag_append (p v : Text) : correctTag p ++ v = quoted (lit "<img src") p ++ '>' :: v := by
  rw [correctTag_eq, quoted]
  simp only [List.append_assoc]
  rfl

/-- The right tag leaves nothing to find. -/
theorem findings_corrected {s : Settings} (hu : '<' ∉ u) (hfree : pathPattern.find? u = none)
    (hfree' : pathPattern.find? v = none) (hp : pathPattern.Reads p gs) :
    findings (u ++ (correctTag p ++ v)) (Image.all (u ++ (correctTag p ++ v))) s = [] := by
  have hfront : lit "<img src" = '<' :: lit "img src" := rfl
  have hscan : ∀ o ∈ pathPattern.scan (u ++ (correctTag p ++ v)), o.text = p := by
    rw [correctTag_append, scan_isolated hfront (by decide) hfree hfree' hp]
    exact List.forall_mem_singleton.mpr rfl
  rw [findings_eq_nil_iff]
  intro o ho
  rw [hscan o ho]
  rcases exists_image_or_leftOpen (a := u) (b := v) (quote_not_mem_path hp) with ⟨i, hi, hsrc⟩ | hopen
  · exact ⟨i, hi, hsrc ▸ List.infix_rfl⟩
  · -- A tag that is left open would begin with `<`.
    obtain ⟨x, h, y, rfl, hhead, -⟩ := hopen
    obtain ⟨h', rfl⟩ := hhead.exists_cons
    exact absurd (by simp) hu

/-- The path of a tag is where it first occurs. -/
theorem offsetOf?_isolated {m' : Text} (hm : m = '<' :: m') (hslash : '/' ∉ m')
    (hfree : pathPattern.find? u = none) (hfree' : pathPattern.find? v = none)
    (hp : pathPattern.Reads p gs) :
    Text.offsetOf? p (u ++ (quoted m p ++ '>' :: v)) = some (u.length + m.length + 2) := by
  have hscan := scan_isolated hm hslash hfree hfree' hp
  have hmem : ∀ o ∈ pathPattern.scan (u ++ (quoted m p ++ '>' :: v)),
      o = ⟨u.length + m.length + 2, p, gs⟩ := by
    rw [hscan]
    exact fun o ho => List.mem_singleton.mp ho
  refine (offsetOf?_eq_start_iff (hscan ▸ List.mem_singleton_self _)
    fun o ho _ => Nat.le_of_eq (congrArg Match.start (hmem o ho)).symm).mpr ?_
  -- No other path lies across.
  rintro ⟨o, ho, j, hbefore, -, hj, -⟩
  rw [hmem o ho] at hbefore
  omega

/-- The findings about a mistyped tag that stands alone: one, from its `<` up to the quote
behind its path. -/
theorem findings_isolated (hm : IsMisspelling m) (hu : '<' ∉ u) (hv : '<' ∉ v)
    (hfree : pathPattern.find? u = none) (hfree' : pathPattern.find? v = none)
    (hp : pathPattern.Reads p gs) {s : Settings} (hs : 12 ≤ s.images.typoWindow) :
    findings (u ++ (quoted m p ++ '>' :: v)) [] s =
      [typoFinding (u ++ (quoted m p ++ '>' :: v)) s p u.length (u.length + (quoted m p).length)] := by
  obtain ⟨n, hn⟩ : ∃ n, n = u.length + m.length + 2 := ⟨_, rfl⟩
  obtain ⟨r, hr, hfinding⟩ := Option.map_eq_some_iff.mp (typoReport_isolated hm hu hv hp hs hn)
  obtain ⟨m', hm', -, -, -, hslash⟩ := hm.plain
  have hoffset := offsetOf?_isolated hm' hslash hfree hfree' hp
  have hpaths : paths (u ++ (quoted m p ++ '>' :: v)) = [p] := by
    rw [paths, scan_isolated hm' hslash hfree hfree' hp]
    rfl
  have hreports : reports (u ++ (quoted m p ++ '>' :: v)) [] s =
      step (u ++ (quoted m p ++ '>' :: v)) s [] p := by
    rw [reports, hpaths]
    rfl
  rw [← hn] at hoffset
  have htypo : typoOf (u ++ (quoted m p ++ '>' :: v)) s p = some r := by
    rw [typoOf, hoffset]
    exact hr
  have hcovers : r.1.covers n = true := by
    have hlen := length_quoted m p
    rw [hfinding, Diagnostic.covers, Bool.and_eq_true, decide_eq_true_eq, decide_eq_true_eq]
    show (u.length : Int) ≤ n ∧ (n : Int) ≤ (u.length + (quoted m p).length : Nat)
    omega
  have hstray : strayOf (u ++ (quoted m p ++ '>' :: v)) s [r] p = [] := by
    simp [strayOf, hoffset, hcovers]
  rw [findings, hreports, step_eq_append, htypo]
  show List.map _ ([r] ++ strayOf _ s [r] p) = _
  rw [hstray, ← hfinding]
  rfl

/-- A mistyped tag with a path, in a text with no other tag and no other path, is the only
finding, from its `<` up to the quote behind the path. The correction puts the right tag in
its place, and then nothing is found any more. -/
theorem repaired (hm : IsMisspelling m) (hu : '<' ∉ u) (hv : '<' ∉ v)
    (hfree : pathPattern.find? u = none) (hfree' : pathPattern.find? v = none)
    (hp : pathPattern.Reads p gs) :
    ∃ d, findings (u ++ (quoted m p ++ '>' :: v)) (Image.all (u ++ (quoted m p ++ '>' :: v))) {} = [d] ∧
      d.severity = .error ∧ d.code = .imageTagTypo ∧ d.start = u.length ∧
      d.stop = u.length + (quoted m p).length ∧
      (Correction.applyAll (u ++ (quoted m p ++ '>' :: v)) [d]).1 = u ++ (correctTag p ++ v) ∧
      findings (u ++ (correctTag p ++ v)) (Image.all (u ++ (correctTag p ++ v))) {} = [] := by
  have hfix : (typoFinding (u ++ (quoted m p ++ '>' :: v)) {} p u.length
      (u.length + (quoted m p).length)).fix =
        some ⟨u.length, (u ++ quoted m p).length + 1, correctTag p, none⟩ := by
    have hend := tagEnd_isolated (u ++ quoted m p) v
    rw [List.append_assoc] at hend
    rw [typoFinding, ← List.length_append, hend]
    rfl
  rw [all_isolated hm hu hv hp, findings_isolated hm hu hv hfree hfree' hp (by decide)]
  refine ⟨_, rfl, rfl, rfl, rfl, rfl, ?_, findings_corrected hu hfree hfree' hp⟩
  rw [Correction.applyAll_singleton hfix, apply_isolated]

/-- A mistyped name in capitals. -/
theorem repaired_capitals :
    ∃ d, findings (lit "a <IMGE sRc=\"a_files/1.png\"> b")
        (Image.all (lit "a <IMGE sRc=\"a_files/1.png\"> b")) {} = [d] ∧
      d.severity = .error ∧ d.code = .imageTagTypo ∧ d.start = 2 ∧ d.stop = 27 ∧
      (Correction.applyAll (lit "a <IMGE sRc=\"a_files/1.png\"> b") [d]).1 =
        lit "a <img src=\"a_files/1.png\"> b" ∧
      findings (lit "a <img src=\"a_files/1.png\"> b")
        (Image.all (lit "a <img src=\"a_files/1.png\"> b")) {} = [] := by
  have hpath : pathPattern.matchAt 0 (lit "a_files/1.png") =
      some ⟨0, lit "a_files/1.png", [lit "a", lit "1"]⟩ := by decide +kernel
  exact repaired (u := lit "a ") (v := lit " b") (m := lit "<IMGE sRc") (p := lit "a_files/1.png")
    (.inl ⟨lit "<imge", by decide, lit "src", by decide, by decide⟩) (by decide) (by decide)
    (by decide) (by decide) (matchAt_eq_some hpath).2.2

end Worksheet.Typo
