import Worksheet.Proofs.Marks.Grammar
import Worksheet.Proofs.Pattern.Seam

/-!
# Where no annotation starts or reaches

The marks in an annotation and what is between them (`GradingLine.exists_parts`) tell
which texts are barren and which are sealed for annotations:

* `GradingLine.sealed_of_front`: behind the front of an annotation, a `<` has a `b` or
  a slash behind it;
* `GradingLine.barren_of_calm`: an annotation starts with a `<` in front of a `p`;
* `GradingLine.barren_of_attribute`: its first attribute has a name that ends with
  `n`;
* `GradingLine.barren_of_last`: it has no slash and no dot in front of the first quote;
* `GradingLine.barren_moved`, `GradingLine.sealed_moved`: its first slash comes after a
  `>`, right behind a `<`.
-/

namespace Worksheet

/-- A character that is not in the front of a text stands behind it. -/
theorem suffix_of_append_of_not_mem {c : Char} {a t y : Text} (h : c :: y <:+ a ++ t) (ha : c ∉ a) :
    c :: y <:+ t := by
  rcases List.suffix_or_suffix_of_suffix h (List.suffix_append a t) with h' | ⟨x, hx⟩
  · exact h'
  · cases x with
    | nil => exact hx ▸ List.suffix_rfl
    | cons d x =>
      obtain ⟨rfl, -⟩ := List.cons_eq_cons.mp hx
      rw [← hx] at h
      exact absurd ((List.suffix_append_self_iff.mp h).mem List.mem_cons_self) ha

namespace GradingLine

open Pattern

/-! ## The marks in an annotation -/

/-- Whether a character is none of the marks that the parts of an annotation, of a
tag or of a name are told apart by. -/
def plain (c : Char) : Bool :=
  c != '<' && c != '>' && c != '/' && c != '"' && c != '=' && c != '.'

theorem ne_of_plain {c d : Char} (h : plain c = true) (hd : plain d = false) : c ≠ d := by
  rintro rfl
  exact Bool.false_ne_true (hd.symm.trans h)

theorem not_mem_of_plain {u : Text} (h : ∀ c ∈ u, plain c = true) {d : Char} (hd : plain d = false) :
    d ∉ u :=
  fun hmem => ne_of_plain (h d hmem) hd rfl

theorem plain_of_isBlank {c : Char} (h : isBlank c = true) : plain c = true := by
  have hne {d : Char} (hd : isBlank d = false) : (c != d) = true := by
    rw [bne_iff_ne]
    rintro rfl
    exact Bool.false_ne_true (hd.symm.trans h)
  simp only [plain, Bool.and_eq_true]
  exact ⟨⟨⟨⟨⟨hne (by decide), hne (by decide)⟩, hne (by decide)⟩, hne (by decide)⟩, hne (by decide)⟩,
    hne (by decide)⟩

/-- The marks in an annotation, in their order, and what is between them. -/
theorem exists_parts {u : Text} {gs : List Text} (h : pattern.Reads u gs) :
    ∃ (a r g : Text) (n b b' q : Char),
      u = '<' :: (a ++ n :: '=' :: '"' :: (r ++ '"' :: '>' :: '<' :: b :: (g ++
        '<' :: '/' :: b' :: '>' :: '<' :: '/' :: q :: ['>']))) ∧
      (∀ c ∈ a, plain c = true) ∧ isLetter 'n' n = true ∧ (∀ c ∈ r, plain c = true) ∧
      isLetter 'b' b = true ∧ (∀ c ∈ g, c ≠ '<' ∧ c ≠ '/') ∧ plain b' = true ∧ plain q = true := by
  obtain ⟨o, b₁, a, b₂, b₃, ds, b₄, un, z, ho, ⟨-, hb₁⟩, ha, hb₂, hb₃, ⟨-, hds⟩, hb₄, hun, hz, rfl, -⟩ :=
    reads_pattern_iff.mp h
  obtain ⟨lt, o, rfl, hlt, ho₁⟩ := Text.Spells.front (a := '<') (x := ['p']) ho
  obtain rfl := eq_of_isLetter_angle hlt
  obtain ⟨alig, a₁, rfl, halig, ha₁⟩ := Text.Spells.exists_append (x := lit "alig")
    (y := lit "n=\"right\"><b>(total for question") ha
  obtain ⟨n, a₂, rfl, hn, ha₂⟩ := Text.Spells.front (a := 'n')
    (x := lit "=\"right\"><b>(total for question") ha₁
  obtain ⟨eq, a₃, rfl, heq, ha₃⟩ := Text.Spells.exists_append (x := lit "=\"")
    (y := lit "right\"><b>(total for question") ha₂
  obtain rfl := heq.eq (by decide)
  obtain ⟨r, a₄, rfl, hr, ha₄⟩ := Text.Spells.exists_append (x := lit "right")
    (y := lit "\"><b>(total for question") ha₃
  obtain ⟨close, a₅, rfl, hclose, ha₅⟩ := Text.Spells.exists_append (x := lit "\"><")
    (y := lit "b>(total for question") ha₄
  obtain rfl := hclose.eq (by decide)
  obtain ⟨b, a₆, rfl, hb, ha₆⟩ := Text.Spells.front (a := 'b') (x := lit ">(total for question") ha₅
  obtain ⟨paren, z₁, rfl, hparen, hz₁⟩ := Text.Spells.exists_append (x := lit ")</") (y := lit "b></p>") hz
  obtain rfl := hparen.eq (by decide)
  obtain ⟨b', z₂, rfl, hb', hz₂⟩ := Text.Spells.front (a := 'b') (x := lit "></p>") hz₁
  obtain ⟨mid, z₃, rfl, hmid, hz₃⟩ := Text.Spells.exists_append (x := lit "></") (y := lit "p>") hz₂
  obtain rfl := hmid.eq (by decide)
  obtain ⟨q, z₄, rfl, hq, hz₄⟩ := Text.Spells.front (a := 'p') (x := lit ">") hz₃
  obtain rfl := hz₄.eq (by decide)
  have inner {c : Char} (hc : plain c = true) : c ≠ '<' ∧ c ≠ '/' :=
    ⟨ne_of_plain hc (by decide), ne_of_plain hc (by decide)⟩
  have spelled {v x : Text} (hv : v.Spells x)
      (hx : (x.all fun a => (letterForms a).all fun c => c != '<' && c != '/') = true) :
      ∀ c ∈ v, c ≠ '<' ∧ c ≠ '/' := fun c hc => by
    have := hv.forall hx c hc
    rwa [Bool.and_eq_true, bne_iff_ne, bne_iff_ne] at this
  have digit {c : Char} (hc : isDecimal c = true) : c ≠ '<' ∧ c ≠ '/' :=
    ⟨fun e => absurd hc (by rw [e]; decide), fun e => absurd hc (by rw [e]; decide)⟩
  refine ⟨o ++ (b₁ ++ alig), r, a₆ ++ (b₂ ++ ('=' :: (b₃ ++ (ds ++ (b₄ ++ (un ++ [')'])))))), n, b, b', q,
    ?_, ?_, hn, hr.forall (p := plain) (by decide), hb, ?_, of_all_forms hb' (by decide),
    of_all_forms hq (by decide)⟩
  · simp only [List.append_assoc, List.cons_append, List.nil_append]
    rfl
  · simp only [List.mem_append]
    rintro c (hc | hc | hc)
    · exact ho₁.forall (p := plain) (by decide) c hc
    · exact plain_of_isBlank (hb₁ c hc)
    · exact halig.forall (p := plain) (by decide) c hc
  · simp only [List.mem_append, List.mem_cons, List.not_mem_nil, or_false]
    rintro c (hc | hc | rfl | hc | hc | hc | hc | rfl)
    · exact spelled ha₆ (by decide) c hc
    · exact inner (plain_of_isBlank (hb₂ c hc))
    · decide
    · exact inner (plain_of_isBlank (hb₃ c hc))
    · exact digit (hds c hc)
    · exact inner (plain_of_isBlank (hb₄ c hc))
    · exact hun.elim (spelled · (by decide) c hc) (spelled · (by decide) c hc)
    · decide

/-- A `<` behind the front of an annotation has a `b` or a slash behind it, and a
slash comes after it, the first one right behind a `<`. -/
theorem inner_angle {x y : Text} {gs : List Text} (h : pattern.Reads (x ++ '<' :: y) gs) (hx : x ≠ []) :
    (∃ c z, y = c :: z ∧ (isLetter 'b' c = true ∨ c = '/')) ∧
      ∃ e w : Text, '<' :: y = e ++ '<' :: '/' :: w ∧ '/' ∉ e := by
  obtain ⟨a, r, g, n, b, b', q, hu, ha, hn, hr, hb, hg, hb', hq⟩ := exists_parts h
  have hn' : n ≠ '<' := bne_iff_ne.mp (of_all_forms (p := (· != '<')) hn (by decide))
  have hb'' : b ≠ '<' ∧ b ≠ '/' := by
    have := of_all_forms (p := fun c => c != '<' && c != '/') hb (by decide)
    rwa [Bool.and_eq_true, bne_iff_ne, bne_iff_ne] at this
  have hg' : '/' ∉ '<' :: b :: g := by
    simp only [List.mem_cons, not_or]
    exact ⟨by decide, hb''.2.symm, fun hmem => (hg _ hmem).2 rfl⟩
  -- The other places with a `<` are those in front of a `b` and of the two slashes.
  obtain ⟨d, x, rfl⟩ := List.exists_cons_of_ne_nil hx
  obtain ⟨-, hxy⟩ := List.cons_eq_cons.mp hu
  have h₁ : '<' :: y <:+ (a ++ (n :: '=' :: '"' :: (r ++ ['"', '>']))) ++ ('<' :: b :: (g ++
      '<' :: '/' :: b' :: '>' :: '<' :: '/' :: q :: ['>'])) := by
    refine ⟨x, hxy.trans ?_⟩
    simp only [List.append_assoc, List.cons_append, List.nil_append]
  have h₂ := suffix_of_append_of_not_mem h₁ (by
    simp only [List.mem_append, List.mem_cons, List.not_mem_nil, or_false, not_or]
    exact ⟨not_mem_of_plain ha (by decide), hn'.symm, by decide, by decide,
      not_mem_of_plain hr (by decide), by decide, by decide⟩)
  rcases List.suffix_cons_iff.mp h₂ with h₃ | h₃
  · obtain ⟨-, rfl⟩ := List.cons_eq_cons.mp h₃
    exact ⟨⟨b, _, rfl, .inl hb⟩, '<' :: b :: g, b' :: '>' :: '<' :: '/' :: q :: ['>'], rfl, hg'⟩
  · have h₄ := suffix_of_append_of_not_mem (a := b :: g) h₃ (by
      simp only [List.mem_cons, not_or]
      exact ⟨hb''.1.symm, fun hmem => (hg _ hmem).1 rfl⟩)
    rcases List.suffix_cons_iff.mp h₄ with h₅ | h₅
    · obtain ⟨-, rfl⟩ := List.cons_eq_cons.mp h₅
      exact ⟨⟨'/', _, rfl, .inr rfl⟩, [], _, rfl, List.not_mem_nil⟩
    · have h₆ := suffix_of_append_of_not_mem (a := '/' :: b' :: ['>']) h₅ (by
        simp only [List.mem_cons, List.not_mem_nil, or_false, not_or]
        exact ⟨by decide, (ne_of_plain hb' (by decide)).symm, by decide⟩)
      rcases List.suffix_cons_iff.mp h₆ with h₇ | h₇
      · obtain ⟨-, rfl⟩ := List.cons_eq_cons.mp h₇
        exact ⟨⟨'/', _, rfl, .inr rfl⟩, [], _, rfl, List.not_mem_nil⟩
      · have h₈ : '<' ∈ '/' :: q :: ['>'] := h₇.mem List.mem_cons_self
        simp only [List.mem_cons, List.not_mem_nil, or_false] at h₈
        rcases h₈ with h₈ | h₈ | h₈
        · exact absurd h₈ (by decide)
        · exact absurd h₈.symm (ne_of_plain hq (by decide))
        · exact absurd h₈ (by decide)

/-- What is in front of the first `>` of an annotation: the first attribute, whose
name ends with `n`, and its value. -/
theorem takeWhile_close {u t : Text} {gs : List Text} (h : pattern.Reads u gs) (ht : u <+: t) :
    ∃ (a r : Text) (n : Char), t.takeWhile (· != '>') = '<' :: (a ++ n :: '=' :: '"' :: (r ++ ['"'])) ∧
      (∀ c ∈ a, plain c = true) ∧ isLetter 'n' n = true ∧ ∀ c ∈ r, plain c = true := by
  obtain ⟨a, r, g, n, b, b', q, rfl, ha, hn, hr, -⟩ := exists_parts h
  refine ⟨a, r, n, ?_, ha, hn, hr⟩
  refine takeWhile_eq (c := '>') (v := '<' :: b :: (g ++
    '<' :: '/' :: b' :: '>' :: '<' :: '/' :: q :: ['>'])) ?_ (by decide) ?_
  · have hn' : (n != '>') = true := of_all_forms (p := (· != '>')) hn (by decide)
    simp only [List.mem_cons, List.mem_append, List.not_mem_nil, or_false]
    rintro c (rfl | hc | rfl | rfl | rfl | hc | rfl)
    · decide
    · exact bne_iff_ne.mpr (ne_of_plain (ha c hc) (by decide))
    · exact hn'
    · decide
    · decide
    · exact bne_iff_ne.mpr (ne_of_plain (hr c hc) (by decide))
    · decide
  · simpa only [List.append_assoc, List.cons_append, List.nil_append] using ht

/-- The first slash of an annotation comes right behind a `<`, and after a `>`. -/
theorem takeWhile_slash {u t : Text} {gs : List Text} (h : pattern.Reads u gs) (ht : u <+: t) :
    ∃ e : Text, t.takeWhile (· != '/') = e ++ ['<'] ∧ '>' ∈ e := by
  obtain ⟨a, r, g, n, b, b', q, rfl, ha, hn, hr, hb, hg, -⟩ := exists_parts h
  refine ⟨'<' :: (a ++ n :: '=' :: '"' :: (r ++ '"' :: '>' :: '<' :: b :: g)), ?_, by simp⟩
  refine takeWhile_eq (c := '/') (v := b' :: '>' :: '<' :: '/' :: q :: ['>']) ?_ (by decide) ?_
  · have hn' : (n != '/') = true := of_all_forms (p := (· != '/')) hn (by decide)
    have hb' : (b != '/') = true := of_all_forms (p := (· != '/')) hb (by decide)
    simp only [List.mem_cons, List.mem_append, List.not_mem_nil, or_false]
    rintro c ((rfl | hc | rfl | rfl | rfl | hc | rfl | rfl | rfl | rfl | hc) | rfl)
    · decide
    · exact bne_iff_ne.mpr (ne_of_plain (ha c hc) (by decide))
    · exact hn'
    · decide
    · decide
    · exact bne_iff_ne.mpr (ne_of_plain (hr c hc) (by decide))
    · decide
    · decide
    · decide
    · exact hb'
    · exact bne_iff_ne.mpr (hg c hc).2
    · decide
  · simpa only [List.append_assoc, List.cons_append, List.nil_append] using ht

/-- In front of the first quote of an annotation there is neither a slash nor a
dot. -/
theorem takeWhile_quote {u t : Text} {gs : List Text} (h : pattern.Reads u gs) (ht : u <+: t) :
    '"' ∈ u ∧ ∀ c ∈ t.takeWhile (· != '"'), c ≠ '/' ∧ c ≠ '.' := by
  obtain ⟨a, r, g, n, b, b', q, rfl, ha, hn, -⟩ := exists_parts h
  have hn' : n != '"' && n != '/' && n != '.' := of_all_forms (p := fun c =>
    c != '"' && c != '/' && c != '.') hn (by decide)
  simp only [Bool.and_eq_true, bne_iff_ne] at hn'
  obtain ⟨⟨hquote, hslash⟩, hdot⟩ := hn'
  have hfront : t.takeWhile (· != '"') = '<' :: (a ++ [n, '=']) := by
    refine takeWhile_eq (c := '"') (v := r ++ '"' :: '>' :: '<' :: b :: (g ++
      '<' :: '/' :: b' :: '>' :: '<' :: '/' :: q :: ['>'])) ?_ (by decide) ?_
    · simp only [List.mem_cons, List.mem_append, List.not_mem_nil, or_false]
      rintro c (rfl | hc | rfl | rfl)
      · decide
      · exact bne_iff_ne.mpr (ne_of_plain (ha c hc) (by decide))
      · exact bne_iff_ne.mpr hquote
      · decide
    · simpa only [List.append_assoc, List.cons_append, List.nil_append] using ht
  refine ⟨by simp, ?_⟩
  rw [hfront]
  simp only [List.mem_cons, List.mem_append, List.not_mem_nil, or_false]
  rintro c (rfl | hc | rfl | rfl)
  · decide
  · exact ⟨ne_of_plain (ha c hc) (by decide), ne_of_plain (ha c hc) (by decide)⟩
  · exact ⟨hslash, hdot⟩
  · decide

/-! ## Sealed texts and barren texts -/

/-- No annotation reaches into a text that starts with a `<` in front of something
else than a `b` or a slash. -/
theorem sealed_of_front {c : Char} {v : Text} (hb : isLetter 'b' c = false) (hslash : c ≠ '/') :
    pattern.Sealed ('<' :: c :: v) := by
  intro w x y gs h hx hy hpre
  obtain ⟨d, z, rfl⟩ := List.exists_cons_of_ne_nil hy
  obtain ⟨rfl, hz⟩ := List.cons_prefix_cons.mp hpre
  obtain ⟨⟨e, z, rfl, he⟩, -⟩ := inner_angle h hx
  obtain ⟨rfl, -⟩ := List.cons_prefix_cons.mp hz
  rcases he with he | he
  · exact Bool.false_ne_true (hb.symm.trans he)
  · exact hslash he

/-- No annotation starts in a text where no `<` has a `p` behind it. -/
theorem barren_of_calm {u : Text} (hu : Calm u) : pattern.Barren u := by
  intro v hv hne r gs hr w hpre
  obtain ⟨c, r, rfl, hc, -⟩ := reads_front hr
  obtain ⟨d, v, rfl⟩ := List.exists_cons_of_ne_nil hne
  obtain ⟨rfl, hrest⟩ := List.cons_prefix_cons.mp hpre
  obtain ⟨e, z, rfl, he⟩ := hu v hv
  obtain ⟨rfl, -⟩ := List.cons_prefix_cons.mp hrest
  exact Bool.false_ne_true (he.symm.trans hc)

/-- No annotation starts in front of an attribute whose name does not end with `n`,
in the same tag. -/
theorem barren_of_attribute {u : Text} {c : Char} (hu : ∀ d ∈ u, d ≠ '>') (hc : c ≠ '>')
    (hn : isLetter 'n' c = false) : pattern.Barren (u ++ c :: '=' :: ['"']) := by
  intro v hv hne r gs hr w hpre
  obtain ⟨a, r', n, hfront, ha, hn', hr'⟩ := takeWhile_close hr hpre
  have hvclose : ∀ d ∈ v, (d != '>') = true := by
    intro d hd
    have := hv.mem hd
    simp only [List.mem_append, List.mem_cons, List.not_mem_nil, or_false] at this
    rcases this with h | rfl | rfl | rfl
    · exact bne_iff_ne.mpr (hu d h)
    · exact bne_iff_ne.mpr hc
    · decide
    · decide
  -- What is left of the tag is part of the attribute of the annotation.
  rw [List.takeWhile_append_of_pos hvclose] at hfront
  obtain ⟨x, rfl⟩ : c :: '=' :: ['"'] <:+ v := by
    rcases List.suffix_or_suffix_of_suffix hv (List.suffix_append u _) with h | h
    · rcases List.suffix_cons_iff.mp h with rfl | h
      · exact List.suffix_rfl
      · have hangle : '<' ∈ '=' :: ['"'] := by
          obtain ⟨d, v, rfl⟩ := List.exists_cons_of_ne_nil hne
          obtain ⟨rfl, -⟩ := List.cons_eq_cons.mp hfront
          exact h.mem List.mem_cons_self
        exact absurd hangle (by decide)
    · exact h
  have hn'' : n ≠ '=' := bne_iff_ne.mp (of_all_forms (p := (· != '=')) hn' (by decide))
  have hsame : (x ++ [c]) ++ '=' :: ('"' :: w.takeWhile (· != '>')) =
      ('<' :: (a ++ [n])) ++ '=' :: ('"' :: (r' ++ ['"'])) := by
    simpa only [List.append_assoc, List.cons_append, List.nil_append] using hfront
  have hleft : '=' ∉ '<' :: (a ++ [n]) := by
    simp only [List.mem_cons, List.mem_append, List.not_mem_nil, or_false, not_or]
    exact ⟨by decide, not_mem_of_plain ha (by decide), hn''.symm⟩
  have hright : '=' ∉ '"' :: (r' ++ ['"']) := by
    simp only [List.mem_cons, List.mem_append, List.not_mem_nil, or_false, not_or]
    exact ⟨by decide, not_mem_of_plain hr' (by decide), by decide⟩
  obtain ⟨hname, -⟩ := (List.append_cons_inj_of_notMem hleft hright).mp hsame.symm
  have hcn : n = c := by
    have := congrArg List.getLast? hname
    rw [← List.cons_append, List.getLast?_concat, List.getLast?_concat] at this
    exact Option.some.inj this
  rw [hcn] at hn'
  exact Bool.false_ne_true (hn.symm.trans hn')

/-- No annotation starts in text without quotes that ends with a slash or a dot. -/
theorem barren_of_last {u : Text} {c : Char} (hu : '"' ∉ u) (hc : c = '/' ∨ c = '.') :
    pattern.Barren (u ++ [c]) := by
  intro v hv hne r gs hr w hpre
  obtain ⟨hquote, hfront⟩ := takeWhile_quote hr hpre
  have hlast : c ∈ v := by
    obtain ⟨z, hz⟩ := hv
    have := congrArg List.getLast? hz
    rw [List.getLast?_append_of_ne_nil _ hne, List.getLast?_concat] at this
    exact List.mem_of_getLast? this
  have hvquote : ∀ d ∈ v, (d != '"') = true := by
    intro d hd
    rw [bne_iff_ne]
    rintro rfl
    rcases List.mem_append.mp (hv.mem hd) with h | h
    · exact hu h
    · rcases hc with rfl | rfl
      · exact absurd h (by decide)
      · exact absurd h (by decide)
  rw [List.takeWhile_append_of_pos hvquote] at hfront
  obtain ⟨hslash, hdot⟩ := hfront c (List.mem_append_left _ hlast)
  exact hc.elim hslash hdot

/-! ## A folder in front of a slash -/

/-- A text that can stand in front of a slash without being part of an annotation: it
has no slash itself, and does not end with a `<`. -/
def IsFolder (f : Text) : Prop := '/' ∉ f ∧ ∃ c, f.getLast? = some c ∧ c ≠ '<'

/-- A text that ends with a folder does not end with a `<`. -/
theorem IsFolder.ne_concat {f x e : Text} (hf : IsFolder f) (h : x <:+ f ∨ f <:+ x) (hx : x ≠ []) :
    x ≠ e ++ ['<'] := by
  rintro rfl
  obtain ⟨-, c, hc, hne⟩ := hf
  have hlast : f.getLast? = some '<' := by
    rcases h with ⟨z, rfl⟩ | ⟨z, hz⟩
    · rw [← List.append_assoc, List.getLast?_concat]
    · have := congrArg List.getLast? hz
      rwa [List.getLast?_append_of_ne_nil _ (by rintro rfl; exact nomatch hc), List.getLast?_concat] at this
  rw [hc] at hlast
  exact hne (Option.some.inj hlast)

theorem takeWhile_of_not_mem {x t v : Text} (hx : '/' ∉ x) (h : x ++ '/' :: v <+: t) :
    t.takeWhile (· != '/') = x :=
  takeWhile_eq (fun _ hc => bne_iff_ne.mpr fun e => hx (e ▸ hc)) (by decide) h

/-- No annotation starts in the part of a tag up to a folder and a slash. -/
theorem barren_moved {u f b : Text} (hu : '>' ∉ u) (hf : IsFolder f) (hb : pattern.Barren b) :
    pattern.Barren (u ++ (f ++ '/' :: b)) := by
  intro v hv hne r gs hr w hpre
  rw [← List.append_assoc] at hv
  have hslashb : pattern.Barren ('/' :: b) :=
    (barren_of_calm (u := ['/'])
      (calm_of_forall (List.forall_mem_singleton.mpr (by decide)))).append hb
  rcases List.suffix_or_suffix_of_suffix hv (List.suffix_append (u ++ f) _) with h | ⟨x, rfl⟩
  · exact hslashb h hne hr w hpre
  · by_cases hxne : x = []
    · exact hslashb (by rw [hxne]; exact List.suffix_rfl) hne hr w hpre
    · have hx : x <:+ u ++ f := List.suffix_append_self_iff.mp hv
      have hxf := List.suffix_or_suffix_of_suffix hx (List.suffix_append u f)
      obtain ⟨e, he, hclose⟩ := takeWhile_slash hr hpre
      by_cases hslash : '/' ∈ x
      · -- The first slash is one of the tag, which has no `>` in front of it.
        obtain ⟨q, z, rfl, hq⟩ := List.eq_append_cons_of_mem hslash
        have hqe : q = e ++ ['<'] := (takeWhile_of_not_mem hq (v := z ++ '/' :: (b ++ w)) (by
          simp only [List.append_assoc, List.cons_append, List.prefix_rfl])).symm.trans he
        rcases hxf with h | ⟨x', hx'⟩
        · exact hf.1 (h.mem (by simp))
        · have hxu : x' <:+ u := by
            rw [← hx'] at hx
            exact List.suffix_append_self_iff.mp hx
          rcases List.append_eq_append_iff.mp hx' with ⟨y, -, hy⟩ | ⟨y, rfl, -⟩
          · exact hf.1 (hy ▸ List.mem_append_right y List.mem_cons_self)
          · exact hu (hxu.mem (List.mem_append_left y (hqe ▸ List.mem_append_left _ hclose)))
      · refine hf.ne_concat hxf hxne ((takeWhile_of_not_mem hslash (v := b ++ w) ?_).symm.trans he)
        simp only [List.append_assoc, List.cons_append, List.prefix_rfl]

/-- No annotation reaches into a folder and a slash behind a `<`. -/
theorem sealed_moved {f : Text} (hf : IsFolder f) (b : Text) :
    pattern.Sealed ('<' :: (f ++ '/' :: b)) := by
  intro w x y gs h hx hy hpre
  obtain ⟨d, y, rfl⟩ := List.exists_cons_of_ne_nil hy
  obtain ⟨rfl, -⟩ := List.cons_prefix_cons.mp hpre
  obtain ⟨-, e, z, he, hslash⟩ := inner_angle h hx
  have hfolder : '/' ∉ '<' :: f := by
    rw [List.mem_cons, not_or]
    exact ⟨by decide, hf.1⟩
  have hangle : '/' ∉ e ++ ['<'] := by
    rw [List.mem_append, List.mem_singleton, not_or]
    exact ⟨hslash, by decide⟩
  rw [he] at hpre
  -- Both the folder and the part of the annotation end in front of the first slash.
  have h₁ := takeWhile_of_not_mem (t := '<' :: (f ++ '/' :: b) ++ w) hfolder (v := b ++ w) (by
    simp only [List.append_assoc, List.cons_append, List.prefix_rfl])
  have h₂ := takeWhile_of_not_mem (t := '<' :: (f ++ '/' :: b) ++ w) hangle (v := z) (by
    rwa [List.append_assoc, List.singleton_append])
  exact hf.ne_concat (.inr (List.suffix_cons '<' f)) (List.cons_ne_nil '<' f) (h₁.symm.trans h₂)

end GradingLine

end Worksheet
