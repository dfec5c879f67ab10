import Mathlib.Data.List.Basic
import Worksheet.Proofs.Image.Shape
import Worksheet.Proofs.Pattern.Preferred
import Worksheet.Proofs.Pattern.Scan

/-!
# How image tags are read

A tag has a front that ends with the quote before its source (`Image.IsHead`), the
source, and a tail from the quote behind it up to the next `>` (`Image.IsTail`). The
front that counts is the first one (`Image.IsFirstHead`): once there is a front, a quote
and a `>` behind it complete the tag, so a later front is never needed.

* `matchAt_eq_some_iff`: what is read as a tag at a place;
* `matchAt_eq_none_iff`: where nothing is;
* `matchAt_of_append`: what comes behind a tag does not matter;
* `matchAt_eq_none_of_tag`: nor does it where nothing is read in front of a tag, as long
  as it begins with `<`.
-/

namespace Worksheet

/-- What stands in front of a character that a text does not hold goes on behind this
text. -/
theorem exists_of_append_eq {α : Type} {a s y q : List α} {c : α} (h : a ++ s = y ++ c :: q)
    (hc : c ∉ a) : ∃ y', y = a ++ y' ∧ s = y' ++ c :: q := by
  rcases List.append_eq_append_iff.mp h with ⟨y', rfl, hs⟩ | ⟨y', rfl, hq⟩
  · exact ⟨y', rfl, hs⟩
  · cases y' with
    | nil => exact ⟨[], by simp, by simpa using hq.symm⟩
    | cons d y' =>
      obtain ⟨rfl, -⟩ := List.cons_eq_cons.mp hq
      exact absurd (List.mem_append_right y List.mem_cons_self) hc

/-- Texts in front of the first place of a character are the same. -/
theorem append_cons_inj {α : Type} {a b s q : List α} {c : α} (ha : c ∉ a) (hb : c ∉ b)
    (h : a ++ c :: s = b ++ c :: q) : a = b ∧ s = q := by
  obtain ⟨y, rfl, hs⟩ := exists_of_append_eq h ha
  cases y with
  | nil => exact ⟨(List.append_nil a).symm, (List.cons_eq_cons.mp hs).2⟩
  | cons d y =>
    obtain ⟨rfl, -⟩ := List.cons_eq_cons.mp hs
    exact absurd (List.mem_append_right a List.mem_cons_self) hb

/-- A text splits in one way at a character that occurs in it once. -/
theorem append_cons_unique {α : Type} {a b s q : List α} {c : α} (ha : c ∉ a) (hs : c ∉ s)
    (h : a ++ c :: s = b ++ c :: q) : a = b ∧ s = q := by
  obtain ⟨y, rfl, hy⟩ := exists_of_append_eq h ha
  cases y with
  | nil => exact ⟨(List.append_nil a).symm, (List.cons_eq_cons.mp hy).2⟩
  | cons d y =>
    obtain ⟨rfl, rfl⟩ := List.cons_eq_cons.mp hy
    exact absurd (List.mem_append_right y List.mem_cons_self) hs

/-- A part of a text that does not hold a character lies on one side of it. -/
theorem infix_or_infix_of_append_cons {α : Type} {w a b : List α} {c : α} (hc : c ∉ w)
    (h : w <:+: a ++ c :: b) : w <:+: a ∨ w <:+: b := by
  obtain ⟨x, y, h⟩ := h
  rw [List.append_assoc] at h
  rcases List.append_eq_append_iff.mp h with ⟨a', rfl, hw⟩ | ⟨x', rfl, hb⟩
  · obtain ⟨a'', rfl, -⟩ := exists_of_append_eq hw hc
    exact .inl ⟨x, a'', List.append_assoc ..⟩
  · cases x' with
    | nil =>
      cases w with
      | nil => exact .inl (List.nil_infix)
      | cons d w =>
        obtain ⟨rfl, -⟩ := List.cons_eq_cons.mp hb
        exact absurd List.mem_cons_self hc
    | cons d x' =>
      obtain ⟨-, rfl⟩ := List.cons_eq_cons.mp hb
      exact .inr ⟨x', y, List.append_assoc ..⟩

namespace Image

open Pattern

/-! ## The parts of a tag -/

/-- The attributes that image tags are recognised by. -/
def attributes : List Text := [lit "src", lit "sc"]

/-- A tag that has begun and is still open. -/
def IsOpen (y : Text) : Prop :=
  ∃ o b x : Text, y = o ++ (b ++ x) ∧ o.Spells (lit "<img") ∧ (b ≠ [] ∧ ∀ c ∈ b, isBlank c = true) ∧
    ∀ c ∈ x, c ≠ '>'

/-- The front of a tag, up to the quote before its source. -/
def IsHead (attr h : Text) : Prop :=
  ∃ y n : Text, h = y ++ n ∧ IsOpen y ∧ n.Spells (attr ++ lit "=\"")

/-- The front of a tag that does not begin with a shorter one. -/
structure IsFirstHead (attr h : Text) : Prop where
  head : IsHead attr h
  first : ∀ h', IsHead attr h' → h' <+: h → h' = h

/-- The end of a tag, from the quote behind its source. -/
def IsTail (z : Text) : Prop := ∃ y, z = '"' :: (y ++ ['>']) ∧ '>' ∉ y

/-- A text begins with a source and the end of a tag. -/
def Closes (r : Text) : Prop := ∃ v z w : Text, r = v ++ (z ++ w) ∧ '"' ∉ v ∧ IsTail z

variable {attr : Text}

/-- How an attribute is spelt, with the quote behind it. -/
theorem exists_of_spells (hattr : attr ∈ attributes) {n : Text} (h : n.Spells (attr ++ lit "=\"")) :
    ∃ c m, n = c :: (m ++ ['"']) ∧ isBlank c = false ∧
      ∀ d ∈ c :: m, d ≠ '"' ∧ d ≠ '<' ∧ d ≠ '>' := by
  have plain {x v : Text} (hv : v.Spells x)
      (hx : (x.all fun a => (letterForms a).all fun d =>
        d != '"' && (d != '<' && (d != '>' && !isBlank d))) = true) :
      ∀ d ∈ v, d ≠ '"' ∧ d ≠ '<' ∧ d ≠ '>' ∧ isBlank d = false := fun d hd => by
    have := hv.forall hx d hd
    rwa [Bool.and_eq_true, Bool.and_eq_true, Bool.and_eq_true, bne_iff_ne, bne_iff_ne, bne_iff_ne,
      Bool.not_eq_true'] at this
  obtain ⟨v, w, rfl, hv, hw⟩ := h.exists_append
  obtain rfl := hw.eq (by decide)
  obtain ⟨hplain, hne⟩ : (∀ d ∈ v, d ≠ '"' ∧ d ≠ '<' ∧ d ≠ '>' ∧ isBlank d = false) ∧ v ≠ [] := by
    simp only [attributes, List.mem_cons, List.not_mem_nil, or_false] at hattr
    rcases hattr with rfl | rfl
    · exact ⟨plain hv (by decide), List.length_pos_iff.mp (by rw [← hv.length_eq]; decide)⟩
    · exact ⟨plain hv (by decide), List.length_pos_iff.mp (by rw [← hv.length_eq]; decide)⟩
  obtain ⟨c, v, rfl⟩ := List.exists_cons_of_ne_nil hne
  refine ⟨c, v ++ ['='], by simp [lit], (hplain c List.mem_cons_self).2.2.2, ?_⟩
  rw [← List.cons_append]
  intro d hd
  rcases List.mem_append.mp hd with hd | hd
  · obtain ⟨h₁, h₂, h₃, -⟩ := hplain d hd
    exact ⟨h₁, h₂, h₃⟩
  · obtain rfl := List.mem_singleton.mp hd
    decide

/-- A front ends with a quote, and there is no `>` in it. -/
theorem IsHead.exists_quote (hattr : attr ∈ attributes) {h : Text} (hh : IsHead attr h) :
    ∃ h', h = h' ++ ['"'] := by
  obtain ⟨y, n, rfl, -, hn⟩ := hh
  obtain ⟨c, m, rfl, -⟩ := exists_of_spells hattr hn
  exact ⟨y ++ c :: m, by simp⟩

theorem IsOpen.not_mem {y : Text} (h : IsOpen y) : '>' ∉ y := by
  obtain ⟨o, b, x, rfl, ho, ⟨-, hb⟩, hx⟩ := h
  simp only [List.mem_append, not_or]
  refine ⟨fun hm => ?_, fun hm => absurd (hb _ hm) (by decide), fun hm => hx _ hm rfl⟩
  exact absurd (ho.forall (p := (· != '>')) (by decide) _ hm) (by decide)

theorem IsHead.not_mem (hattr : attr ∈ attributes) {h : Text} (hh : IsHead attr h) : '>' ∉ h := by
  obtain ⟨y, n, rfl, hy, hn⟩ := hh
  obtain ⟨c, m, rfl, -, hm⟩ := exists_of_spells hattr hn
  rw [← List.cons_append]
  simp only [List.mem_append, List.mem_singleton, not_or]
  exact ⟨hy.not_mem, fun h => (hm _ h).2.2 rfl, by decide⟩

/-- A front begins with `<`. -/
theorem IsOpen.exists_cons {y : Text} (h : IsOpen y) : ∃ y', y = '<' :: y' := by
  obtain ⟨o, b, x, rfl, ho, -⟩ := h
  obtain ⟨lt, o, rfl, hlt, -⟩ := Text.Spells.front (a := '<') (x := lit "img") ho
  obtain rfl := eq_of_isLetter_angle hlt
  exact ⟨_, rfl⟩

theorem IsHead.exists_cons {h : Text} (hh : IsHead attr h) : ∃ h', h = '<' :: h' := by
  obtain ⟨y, n, rfl, hy, -⟩ := hh
  obtain ⟨y, rfl⟩ := hy.exists_cons
  exact ⟨_, rfl⟩

theorem IsOpen.append {y x : Text} (h : IsOpen y) (hx : '>' ∉ x) : IsOpen (y ++ x) := by
  obtain ⟨o, b, x', rfl, ho, hb, hx'⟩ := h
  refine ⟨o, b, x' ++ x, by simp only [List.append_assoc], ho, hb, fun c hc e => ?_⟩
  rcases List.mem_append.mp hc with hc | hc
  · exact hx' c hc e
  · exact hx (e ▸ hc)

/-- In a tag that is open, the front of another tag is one of its own. -/
theorem IsOpen.isHead_append {y h : Text} (hy : IsOpen y) (hh : IsHead attr h) :
    IsHead attr (y ++ h) := by
  obtain ⟨y', n, rfl, hy', hn⟩ := hh
  exact ⟨y ++ y', n, by rw [List.append_assoc], hy.append hy'.not_mem, hn⟩

/-- Where a front goes on with `<`, the tag was open. -/
theorem isOpen_of_isHead (hattr : attr ∈ attributes) {y q : Text} (hy : y ≠ [])
    (h : IsHead attr (y ++ '<' :: q)) : IsOpen y := by
  obtain ⟨y', n, heq, ⟨o, b, x, rfl, ho, ⟨hne, hb⟩, hx⟩, hn⟩ := h
  obtain ⟨lt, o', rfl, hlt, ho'⟩ := Text.Spells.front (a := '<') (x := lit "img") ho
  obtain ⟨d, y, rfl⟩ := List.exists_cons_of_ne_nil hy
  obtain ⟨rfl, heq₁⟩ := List.cons_eq_cons.mp heq
  simp only [List.append_eq, List.append_assoc] at heq₁
  have hangle : '<' ∉ o' := fun hm =>
    absurd (ho'.forall (p := (· != '<')) (by decide) _ hm) (by decide)
  obtain ⟨y, rfl, heq₂⟩ := exists_of_append_eq heq₁.symm hangle
  obtain ⟨y, rfl, heq₃⟩ := exists_of_append_eq heq₂ fun hm => absurd (hb _ hm) (by decide)
  refine ⟨d :: o', b, y, by simp, ho, ⟨hne, hb⟩, fun c hc => ?_⟩
  -- The `<` is not in the attribute, so it comes before it.
  rcases List.append_eq_append_iff.mp heq₃ with ⟨y', rfl, hn'⟩ | ⟨y', rfl, -⟩
  · obtain ⟨e, m, rfl, -, hm⟩ := exists_of_spells hattr hn
    rw [← List.cons_append] at hn'
    have hmem : '<' ∈ e :: m ++ ['"'] := hn' ▸ List.mem_append_right y' List.mem_cons_self
    rcases List.mem_append.mp hmem with hmem | hmem
    · exact absurd rfl (hm _ hmem).2.1
    · exact absurd hmem (by decide)
  · exact hx c (List.mem_append_left y' hc)

/-! ## What completes a tag -/

/-- A quote, and a `>` behind it, are enough. -/
theorem closes_of_mem (a : Text) {b : Text} (hb : '>' ∈ b) : Closes (a ++ '"' :: b) := by
  obtain ⟨v, r, hv, hquote⟩ :=
    List.eq_append_cons_of_mem (List.mem_append_right a List.mem_cons_self : '"' ∈ a ++ '"' :: b)
  have hr : '>' ∈ r := by
    obtain ⟨y, rfl, hs⟩ := exists_of_append_eq hv.symm hquote
    cases y with
    | nil => rwa [(List.cons_eq_cons.mp hs).2]
    | cons d y =>
      rw [(List.cons_eq_cons.mp hs).2]
      exact List.mem_append_right y (List.mem_cons_of_mem _ hb)
  obtain ⟨y, w, rfl, hclose⟩ := List.eq_append_cons_of_mem hr
  exact ⟨v, _, w, by rw [hv]; simp, hquote, y, rfl, hclose⟩

theorem IsTail.mem {z : Text} (h : IsTail z) : ∃ b, z = '"' :: b ∧ '>' ∈ b := by
  obtain ⟨y, rfl, -⟩ := h
  exact ⟨_, rfl, List.mem_append_right y (List.mem_singleton_self _)⟩

/-- What stands in front of a tail does not keep a tag from being completed. -/
theorem closes_of_tail (a : Text) {z w : Text} (h : IsTail z) : Closes (a ++ (z ++ w)) := by
  obtain ⟨b, rfl, hb⟩ := h.mem
  rw [List.cons_append]
  exact closes_of_mem a (List.mem_append_left w hb)

/-- The source and the tail at the front of a text are the only ones. -/
theorem closes_unique {v v' z z' w w' : Text} (h : v ++ (z ++ w) = v' ++ (z' ++ w')) (hv : '"' ∉ v)
    (hv' : '"' ∉ v') (hz : IsTail z) (hz' : IsTail z') : v = v' ∧ z = z' ∧ w = w' := by
  obtain ⟨y, rfl, hy⟩ := hz
  obtain ⟨y', rfl, hy'⟩ := hz'
  rw [List.cons_append, List.cons_append] at h
  obtain ⟨rfl, h₁⟩ := append_cons_inj hv hv' h
  rw [List.append_assoc, List.append_assoc] at h₁
  obtain ⟨rfl, rfl⟩ := append_cons_inj hy hy' h₁
  exact ⟨rfl, rfl, rfl⟩

/-! ## What is read as a tag -/

/-- What a tag looks like from its attribute on. -/
def sourcePattern (attr : Text) : Pattern :=
  .all [.anyCase (attr ++ lit "=\""), .group (.most (· != '"')), .exactly (lit "\""),
    .most (· != '>'), .exactly (lit ">")]

theorem pattern_eq (attr : Text) :
    pattern attr = (anyCase (lit "<img")).seq ((oneOrMore isBlank).seq ((fewest (· != '>')).seq
      (sourcePattern attr))) := rfl

theorem reads_sourcePattern_iff {u : Text} {gs : List Text} :
    (sourcePattern attr).Reads u gs ↔
      ∃ n v z : Text, u = n ++ (v ++ z) ∧ n.Spells (attr ++ lit "=\"") ∧ '"' ∉ v ∧ IsTail z ∧ gs = [v] := by
  constructor
  · intro h
    obtain ⟨n, _, rfl, hn, h₁⟩ := reads_anyCase_seq.mp h
    obtain ⟨v, _, gs', rfl, hv, h₂, rfl⟩ := (reads_group_seq fun _ _ => reads_source).mp h₁
    obtain ⟨_, rfl, h₃⟩ := reads_exactly_seq.mp h₂
    obtain ⟨y, _, rfl, hy, h₄⟩ := reads_most_seq.mp h₃
    obtain ⟨rfl, rfl⟩ := reads_exactly.mp (reads_seq_empty.mp h₄)
    refine ⟨n, v, _, rfl, hn, fun hm => hv _ hm rfl, ⟨y, rfl, fun hm => ?_⟩, rfl⟩
    exact absurd (hy _ hm) (by decide)
  · rintro ⟨n, v, _, rfl, hn, hv, ⟨y, rfl, hy⟩, rfl⟩
    refine reads_anyCase_seq.mpr ⟨n, _, rfl, hn, (reads_group_seq fun _ _ => reads_source).mpr
      ⟨v, _, [], rfl, fun c hc e => hv (e ▸ hc), reads_exactly_seq.mpr ⟨y ++ ['>'], rfl, ?_⟩, rfl⟩⟩
    refine reads_most_seq.mpr ⟨y, _, rfl, fun c hc => bne_iff_ne.mpr fun e => hy (e ▸ hc), ?_⟩
    exact reads_seq_empty.mpr (reads_exactly.mpr ⟨rfl, rfl⟩)

/-- Behind the name of an attribute, a source and a tail are read. -/
theorem exists_reads_sourcePattern {n r : Text} (hn : n.Spells (attr ++ lit "=\"")) (hr : Closes r) :
    ∃ w gs, (sourcePattern attr).Reads w gs ∧ w <+: n ++ r := by
  obtain ⟨v, z, w, rfl, hv, hz⟩ := hr
  refine ⟨n ++ (v ++ z), [v], reads_sourcePattern_iff.mpr ⟨n, v, z, rfl, hn, hv, hz, rfl⟩, w, ?_⟩
  simp only [List.append_assoc]

/-- A front, a source and a tail make up a tag. -/
theorem reads_pattern {h v z : Text} (hh : IsHead attr h) (hv : '"' ∉ v) (hz : IsTail z) :
    (pattern attr).Reads (h ++ (v ++ z)) [v] := by
  obtain ⟨_, n, rfl, ⟨o, b, x, rfl, ho, hb, hx⟩, hn⟩ := hh
  have htext : o ++ (b ++ x) ++ n ++ (v ++ z) = o ++ (b ++ (x ++ (n ++ (v ++ z)))) := by
    simp only [List.append_assoc]
  rw [pattern_eq, htext]
  refine reads_anyCase_seq.mpr ⟨o, _, rfl, ho, reads_oneOrMore_seq.mpr ⟨b, _, rfl, hb, ?_⟩⟩
  exact reads_fewest_seq.mpr ⟨x, _, rfl, fun c hc => bne_iff_ne.mpr (hx c hc),
    reads_sourcePattern_iff.mpr ⟨n, v, z, rfl, hn, hv, hz, rfl⟩⟩

/-- A run of white space and a shorter text in front of a character that is none: the
run is longer than another one, or it leaves a shorter text behind this one. -/
theorem run_cases {b b₁ x x₁ u v : Text} {c : Char} (hc : isBlank c = false)
    (hb : ∀ d ∈ b, isBlank d = true) (h : b₁ ++ (x₁ ++ c :: v) = b ++ (x ++ u))
    (hlen : b₁.length + x₁.length < b.length + x.length) :
    b.length < b₁.length ∨ ∃ x₂, x ++ u = x₂ ++ c :: v ∧ x₂.length < x.length := by
  refine (Nat.lt_or_ge b.length b₁.length).imp_right fun hle => ?_
  obtain ⟨b₂, rfl⟩ := List.prefix_of_prefix_length_le (h ▸ List.prefix_append b₁ _)
    (List.prefix_append b (x ++ u)) hle
  rw [List.append_assoc] at h
  have hmem : c ∉ b₂ := fun hm => by
    rw [hb c (List.mem_append_right b₁ hm)] at hc
    exact nomatch hc
  obtain ⟨x₂, rfl, hx⟩ := exists_of_append_eq (List.append_cancel_left h).symm hmem
  refine ⟨x₂, hx, ?_⟩
  simp only [List.length_append] at hlen
  omega

/-- The run of white space and the text in front of the attribute that were preferred are not
longer than those of another front with what completes a tag behind it. -/
theorem le_of_preferred (hattr : attr ∈ attributes) {b x u b₁ x₁ n₁ r : Text}
    (hlong : ∀ b' v', b ++ (x ++ u) = b' ++ v' → (∀ c ∈ b', isBlank c = true) →
      b.length < b'.length → ∀ ⦃w gs⦄, ((fewest (· != '>')).seq (sourcePattern attr)).Reads w gs → ¬ w <+: v')
    (hshort : ∀ x' v', x ++ u = x' ++ v' → x'.length < x.length →
      ∀ ⦃w gs⦄, (sourcePattern attr).Reads w gs → ¬ w <+: v')
    (hb : ∀ c ∈ b, isBlank c = true) (hb₁ : ∀ c ∈ b₁, isBlank c = true) (hx₁ : ∀ c ∈ x₁, c ≠ '>')
    (hn₁ : n₁.Spells (attr ++ lit "=\"")) (hr : Closes r)
    (h : b₁ ++ (x₁ ++ (n₁ ++ r)) = b ++ (x ++ u)) :
    b.length + x.length ≤ b₁.length + x₁.length := by
  refine Nat.not_lt.mp fun hshorter => ?_
  obtain ⟨y, gs, hy, hpre⟩ := exists_reads_sourcePattern hn₁ hr
  obtain ⟨c, k, rfl, hc, -⟩ := exists_of_spells hattr hn₁
  rcases run_cases hc hb h hshorter with hlt | ⟨x₂, hx₂, hlt⟩
  · have hread : ((fewest (· != '>')).seq (sourcePattern attr)).Reads (x₁ ++ y) gs :=
      reads_fewest_seq.mpr ⟨x₁, y, rfl, fun d hd => bne_iff_ne.mpr (hx₁ d hd), hy⟩
    exact absurd ((List.prefix_append_right_inj x₁).mpr hpre) (hlong b₁ _ h.symm hb₁ hlt hread)
  · exact absurd hpre (hshort x₂ _ hx₂ hlt hy)

/-- Behind the front of a tag that is inside of a longer one stands what completes it: the
quote of the longer one, and its tail. -/
theorem exists_closes (hattr : attr ∈ attributes) {h h₁ v z : Text} (w : Text) (hh : IsHead attr h)
    (hz : IsTail z) (hpre : h₁ <+: h) (hne : h₁ ≠ h) :
    ∃ q, h = h₁ ++ (q ++ ['"']) ∧ Closes (q ++ '"' :: (v ++ (z ++ w))) := by
  obtain ⟨q, rfl⟩ := hpre
  obtain ⟨q, c, rfl⟩ := (List.eq_nil_or_concat' q).resolve_left fun hnil => hne (by simp [hnil])
  obtain ⟨front, hfront⟩ := hh.exists_quote hattr
  rw [← List.append_assoc] at hfront
  obtain ⟨rfl, hc⟩ := List.append_inj' hfront rfl
  obtain rfl := (List.cons_eq_cons.mp hc).1
  obtain ⟨d, rfl, hd⟩ := hz.mem
  have hmem : '>' ∈ v ++ ('"' :: d ++ w) :=
    List.mem_append_right v (List.mem_append_left w (List.mem_cons_of_mem _ hd))
  exact ⟨q, rfl, closes_of_mem q hmem⟩

/-- What is read as a tag has the first front at its place: otherwise a shorter run in
front of the attribute would be preferred. -/
theorem exists_of_matchAt_eq_some (hattr : attr ∈ attributes) {n : Nat} {t : Text} {m : Match}
    (hm : (pattern attr).matchAt n t = some m) :
    ∃ h v z w, t = h ++ (v ++ (z ++ w)) ∧ m = ⟨n, h ++ (v ++ z), [v]⟩ ∧ IsFirstHead attr h ∧
      '"' ∉ v ∧ IsTail z := by
  rw [pattern_eq] at hm
  obtain ⟨o, b, x, u, w, gs, rfl, rfl, ho, ⟨hne, hb⟩, hx, hu, hlong, hshort⟩ := exists_of_matchAt hm
  obtain ⟨n', v, z, rfl, hn, hv, hz, rfl⟩ := reads_sourcePattern_iff.mp hu
  have hopen : IsOpen (o ++ (b ++ x)) := ⟨o, b, x, rfl, ho, ⟨hne, hb⟩, by simpa using hx⟩
  have hhead : IsHead attr (o ++ (b ++ (x ++ n'))) :=
    ⟨o ++ (b ++ x), n', by simp only [List.append_assoc], hopen, hn⟩
  refine ⟨o ++ (b ++ (x ++ n')), v, z, w, by simp only [List.append_assoc],
    by simp only [List.append_assoc], ⟨hhead, ?_⟩, hv, hz⟩
  rintro _ ⟨_, n₁, rfl, ⟨o₁, b₁, x₁, rfl, ho₁, ⟨-, hb₁⟩, hx₁⟩, hn₁⟩ hpre
  by_contra hdiffers
  obtain ⟨q, hfront, hcloses⟩ := exists_closes hattr (v := v) w hhead hz hpre hdiffers
  have htext : o₁ ++ (b₁ ++ (x₁ ++ (n₁ ++ (q ++ '"' :: (v ++ (z ++ w)))))) =
      o ++ (b ++ (x ++ (n' ++ (v ++ z) ++ w))) := by
    have := congrArg (· ++ (v ++ (z ++ w))) hfront
    simp only [List.append_assoc, List.singleton_append] at this ⊢
    exact this.symm
  obtain ⟨rfl, htext₁⟩ := List.append_inj htext (ho₁.length_eq.symm.trans ho.length_eq)
  have hle := le_of_preferred hattr hlong hshort hb hb₁ hx₁ hn₁ hcloses htext₁
  -- Both fronts end with the attribute, so the shorter one is shorter in front of it.
  have hlen := congrArg List.length hfront
  simp only [List.length_append, List.length_singleton, hn.length_eq.symm, hn₁.length_eq.symm] at hlen
  omega

/-- What is read as a tag at a place: the first front, the source up to the next quote,
and the tail up to the next `>`. -/
theorem matchAt_eq_some_iff (hattr : attr ∈ attributes) {n : Nat} {t : Text} {m : Match} :
    (pattern attr).matchAt n t = some m ↔
      ∃ h v z w, t = h ++ (v ++ (z ++ w)) ∧ m = ⟨n, h ++ (v ++ z), [v]⟩ ∧ IsFirstHead attr h ∧
        '"' ∉ v ∧ IsTail z := by
  constructor
  · exact exists_of_matchAt_eq_some hattr
  · rintro ⟨h, v, z, w, rfl, rfl, hh, hv, hz⟩
    cases hm : (pattern attr).matchAt n (h ++ (v ++ (z ++ w))) with
    | none =>
      refine absurd ?_ (Pattern.matchAt_eq_none_iff.mp hm _ _ (reads_pattern hh.head hv hz))
      exact ⟨w, by simp only [List.append_assoc]⟩
    | some m =>
      obtain ⟨h', v', z', w', ht, rfl, hh', hv', hz'⟩ := exists_of_matchAt_eq_some hattr hm
      -- Of two first fronts of one text, neither is longer.
      obtain rfl : h' = h := by
        rcases List.prefix_or_prefix_of_prefix (List.prefix_append h' _)
          (ht ▸ List.prefix_append h (v ++ (z ++ w))) with hpre | hpre
        · exact hh.first h' hh'.head hpre
        · exact (hh'.first h hh.head hpre).symm
      obtain ⟨rfl, rfl, -⟩ := closes_unique (List.append_cancel_left ht) hv hv' hz hz'
      rfl

/-- Nothing is read as a tag if and only if no front has what completes it behind it. -/
theorem matchAt_eq_none_iff (hattr : attr ∈ attributes) {n : Nat} {t : Text} :
    (pattern attr).matchAt n t = none ↔ ∀ h r, IsHead attr h → t = h ++ r → ¬ Closes r := by
  constructor
  · rintro hm h _ hh rfl ⟨v, z, w, rfl, hv, hz⟩
    refine absurd ?_ (Pattern.matchAt_eq_none_iff.mp hm _ _ (reads_pattern hh hv hz))
    exact ⟨w, by simp only [List.append_assoc]⟩
  · intro hnone
    cases hm : (pattern attr).matchAt n t with
    | none => rfl
    | some m =>
      obtain ⟨h, v, z, w, ht, -, hh, hv, hz⟩ := exists_of_matchAt_eq_some hattr hm
      exact absurd ⟨v, z, w, rfl, hv, hz⟩ (hnone h _ hh.head ht)

/-- What is read as a tag does not depend on what comes behind it. -/
theorem matchAt_of_append (hattr : attr ∈ attributes) {n : Nat} {y t t' : Text} {m : Match}
    (hm : (pattern attr).matchAt n (y ++ t) = some m) (hlen : m.text.length ≤ y.length) :
    (pattern attr).matchAt n (y ++ t') = some m := by
  obtain ⟨h, v, z, w, ht, rfl, hh, hv, hz⟩ := (matchAt_eq_some_iff hattr).mp hm
  have hpre : h ++ (v ++ z) <+: y := List.prefix_of_prefix_length_le
    ⟨w, by rw [ht]; simp only [List.append_assoc]⟩ (List.prefix_append y t) hlen
  obtain ⟨w', rfl⟩ := hpre
  exact (matchAt_eq_some_iff hattr).mpr ⟨h, v, z, w' ++ t', by simp only [List.append_assoc], rfl, hh, hv, hz⟩

/-- Where nothing is read in front of a tag, nothing is read in front of anything else
that begins with `<`: a front would reach into the tag, and the tag would complete it. -/
theorem matchAt_eq_none_of_tag (hattr : attr ∈ attributes) {n : Nat} {y h v z w : Text} (hy : y ≠ [])
    (hh : IsHead attr h) (hz : IsTail z)
    (hnone : (pattern attr).matchAt n (y ++ (h ++ (v ++ (z ++ w)))) = none) (r : Text) :
    (pattern attr).matchAt n (y ++ '<' :: r) = none := by
  rw [matchAt_eq_none_iff hattr] at hnone ⊢
  have hcloses (q : Text) : Closes (q ++ (v ++ (z ++ w))) := by
    rw [← List.append_assoc]
    exact closes_of_tail (q ++ v) hz
  intro h' r' hh' heq
  have hwithin {q : Text} (hq : y = h' ++ q) : False := by
    refine hnone h' (q ++ (h ++ (v ++ (z ++ w)))) hh' (by rw [hq, List.append_assoc]) ?_
    rw [← List.append_assoc]
    exact hcloses (q ++ h)
  rcases List.append_eq_append_iff.mp heq with ⟨q, hq, hr⟩ | ⟨q, hq, -⟩
  · cases q with
    | nil => exact (hwithin (q := []) (by rw [hq, List.append_nil, List.append_nil])).elim
    | cons d q =>
      obtain ⟨rfl, -⟩ := List.cons_eq_cons.mp hr
      have hopen := isOpen_of_isHead hattr hy (hq ▸ hh')
      exact absurd (hcloses []) (hnone _ _ (hopen.isHead_append hh) (by rw [List.append_assoc]; rfl))
  · exact (hwithin hq).elim

/-! ## The tags of a text -/

/-- How the parts of an image stand in a text, with what is in front of it and behind
it. -/
structure Placed (attr t : Text) (i : Image) (a h z b : Text) : Prop where
  text : t = a ++ (h ++ (i.src ++ (z ++ b)))
  fullText : i.fullText = h ++ (i.src ++ z)
  start : i.start = a.length
  head : IsFirstHead attr h
  quote : '"' ∉ i.src
  tail : IsTail z

variable {t : Text} {i : Image} {misspelt : Bool}

theorem mem_allWith_iff :
    i ∈ allWith attr misspelt t ↔
      i.misspelt = misspelt ∧ ∃ n gs, i.start = (n : Nat) ∧ i.src = List.getD gs 0 [] ∧
        ⟨n, i.fullText, gs⟩ ∈ (pattern attr).scan t := by
  rw [allWith, List.mem_map]
  constructor
  · rintro ⟨m, hm, rfl⟩
    exact ⟨rfl, m.start, m.groups, rfl, rfl, hm⟩
  · rintro ⟨rfl, n, gs, hstart, hsrc, hm⟩
    refine ⟨_, hm, ?_⟩
    cases i
    simp only at hstart hsrc
    rw [hstart, hsrc]
    rfl

/-- Every image has its place in the text. -/
theorem exists_placed (hattr : attr ∈ attributes) (hi : i ∈ allWith attr misspelt t) :
    ∃ a h z b, Placed attr t i a h z b := by
  obtain ⟨-, n, gs, hstart, hsrc, hm⟩ := mem_allWith_iff.mp hi
  obtain ⟨k, -, hk, hat⟩ := matchAt_of_mem_scanFrom hm
  obtain rfl : n = k := by simpa using hk
  obtain ⟨h, v, z, b, hdrop, hmatch, hh, hv, hz⟩ := (matchAt_eq_some_iff hattr).mp hat
  obtain ⟨-, hfull, rfl⟩ := Match.mk.inj hmatch
  have hne : h ≠ [] := by
    obtain ⟨h', rfl⟩ := hh.head.exists_cons
    exact List.cons_ne_nil _ _
  have hle : n ≤ t.length := Nat.le_of_lt (Nat.lt_of_not_le fun hle => by
    rw [List.drop_eq_nil_of_le hle] at hdrop
    exact hne (List.append_eq_nil_iff.mp hdrop.symm).1)
  have hsrc' : i.src = v := hsrc
  refine ⟨t.take n, h, z, b, ?_, hsrc' ▸ hfull, ?_, hh, hsrc' ▸ hv, hz⟩
  · rw [hsrc', ← hdrop, List.take_append_drop]
  · rw [hstart, List.length_take, Nat.min_eq_left hle]

/-- The search for tags comes to the place of an image, also when something else that
begins with `<` is put there. -/
theorem Placed.meets {a h z b : Text} (hp : Placed attr t i a h z b) (hattr : attr ∈ attributes)
    (hi : i ∈ allWith attr misspelt t) (r : Text) : (pattern attr).Meets 0 a ('<' :: r) := by
  obtain ⟨-, n, gs, hstart, -, hm⟩ := mem_allWith_iff.mp hi
  rw [Pattern.scan, hp.text] at hm
  refine meets_of_mem hm ?_ (fun y _ _ k m hread hlen => matchAt_of_append hattr hread hlen) ?_
  · rw [hp.start, Int.natCast_inj] at hstart
    exact hstart.symm.trans (Nat.zero_add _).symm
  · intro y hy _ k hnone
    exact matchAt_eq_none_of_tag hattr hy hp.head.head hp.tail hnone r

/-- A tag is found where the search comes to it. -/
theorem mem_allWith_of_meets (misspelt : Bool) (hattr : attr ∈ attributes) {a h v z b : Text}
    (hmeets : (pattern attr).Meets 0 a (h ++ (v ++ (z ++ b)))) (hh : IsFirstHead attr h)
    (hv : '"' ∉ v) (hz : IsTail z) :
    ⟨h ++ (v ++ z), v, a.length, misspelt⟩ ∈ allWith attr misspelt (a ++ (h ++ (v ++ (z ++ b)))) := by
  refine mem_allWith_iff.mpr ⟨rfl, a.length, [v], rfl, rfl, mem_scanFrom_of_meets hmeets ?_ ?_⟩
  · exact (matchAt_eq_some_iff hattr).mpr ⟨h, v, z, b, rfl, by rw [Nat.zero_add], hh, hv, hz⟩
  · obtain ⟨h', rfl⟩ := hh.head.exists_cons
    exact List.cons_ne_nil _ _

end Image

end Worksheet
