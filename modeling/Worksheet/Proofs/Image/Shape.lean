import Worksheet.Image.Typo
import Worksheet.Proofs.Pattern.Single
import Worksheet.Proofs.Text.Letters

/-!
# What image tags and mistyped tags look like

The texts that the patterns for image tags (`Image.isTag_of_reads`), for paths
(`Typo.exists_of_reads_path`) and for mistyped tags (`Typo.reads_namePattern_iff`,
`Typo.reads_misattributed_iff`) read, in parts.

* `Typo.not_misnamed`: no tag with a mistyped name starts where an image tag
  starts.
-/

namespace Worksheet

open Pattern

/-! ## Image tags -/

namespace Image

/-- A tag with an attribute and a source. -/
def IsTag (attr u src : Text) : Prop :=
  ∃ o b x n z : Text, u = o ++ (b ++ (x ++ (n ++ (src ++ '"' :: z)))) ∧ o.Spells (lit "<img") ∧
    (b ≠ [] ∧ ∀ c ∈ b, isBlank c = true) ∧ (∀ c ∈ x, c ≠ '>') ∧ n.Spells (attr ++ lit "=\"") ∧
    ∀ c ∈ src, c ≠ '"'

theorem reads_source {u : Text} {gs : List Text} :
    (most (· != '"')).Reads u gs ↔ (∀ c ∈ u, c ≠ '"') ∧ gs = [] := by
  simp only [Reads, bne_iff_ne]

theorem isTag_of_reads {attr u : Text} {gs : List Text} (h : (pattern attr).Reads u gs) :
    ∃ src, gs = [src] ∧ IsTag attr u src := by
  obtain ⟨o, _, rfl, ho, h₁⟩ := reads_anyCase_seq.mp h
  obtain ⟨b, _, rfl, hb, h₂⟩ := reads_oneOrMore_seq.mp h₁
  obtain ⟨x, _, rfl, hx, h₃⟩ := reads_fewest_seq.mp h₂
  obtain ⟨n, _, rfl, hn, h₄⟩ := reads_anyCase_seq.mp h₃
  obtain ⟨v, _, gs', rfl, hv, h₅, rfl⟩ := (reads_group_seq fun _ _ => reads_source).mp h₄
  obtain ⟨_, rfl, h₆⟩ := reads_exactly_seq.mp h₅
  obtain ⟨z, _, rfl, -, h₇⟩ := reads_most_seq.mp h₆
  obtain ⟨_, rfl⟩ := reads_exactly.mp (reads_seq_empty.mp h₇)
  exact ⟨v, rfl, o, b, x, n, _, rfl, ho, hb, by simpa using hx, hn, hv⟩

/-- An image with the right attribute is a tag where it starts in the text. -/
theorem isTag_of_mem_all {t : Text} {i : Image} (hi : i ∈ all t) (hsrc : i.misspelt = false) :
    ∃ k : Nat, i.start = k ∧ i.fullText <+: t.drop k ∧ IsTag (lit "src") i.fullText i.src := by
  rcases List.mem_append.mp hi with h | h
  · obtain ⟨m, hm, rfl⟩ := List.mem_map.mp h
    obtain ⟨hpre, hreads⟩ := mem_scan hm
    obtain ⟨src, hgs, htag⟩ := isTag_of_reads hreads
    refine ⟨m.start, rfl, hpre, ?_⟩
    rw [Match.group, hgs]
    exact htag
  · obtain ⟨m, -, rfl⟩ := List.mem_map.mp h
    exact nomatch hsrc

end Image

/-! ## Paths -/

namespace Typo

/-- What is read as a path, in parts. -/
theorem exists_of_reads_path {u : Text} {gs : List Text} (h : pathPattern.Reads u gs) :
    ∃ a f d e : Text, u = a ++ (f ++ '/' :: (d ++ e)) ∧ gs = [a, d] ∧ (∀ c ∈ a, isWord c = true) ∧
      f.Spells (lit "_files") ∧ (∀ c ∈ d, isDecimal c = true) ∧ e.Spells (lit ".png") := by
  obtain ⟨a, _, _, rfl, ⟨-, ha⟩, h₁, rfl⟩ := (reads_group_seq fun _ _ =>
    reads_oneOrMore.trans and_assoc.symm).mp h
  obtain ⟨b, _, rfl, hb, h₂⟩ := reads_anyCase_seq.mp h₁
  obtain ⟨d, _, _, rfl, ⟨-, hd⟩, h₃, rfl⟩ := (reads_group_seq fun _ _ =>
    reads_oneOrMore.trans and_assoc.symm).mp h₂
  obtain ⟨he, rfl⟩ := reads_anyCase.mp (reads_seq_empty.mp h₃)
  obtain ⟨f, w, rfl, hf, hw⟩ := Text.Spells.exists_append (x := lit "_files") (y := lit "/") hb
  obtain rfl := hw.eq (by decide)
  exact ⟨a, f, d, _, by rw [List.append_assoc f]; rfl, rfl, ha, hf, hd, he⟩

/-- A character that is neither part of a word nor of what else is spelt out in a path is not
in one. -/
theorem not_mem_of_reads_path {x : Char} (hword : isWord x = false) (hdecimal : isDecimal x = false)
    (hspelt : (lit "_files/.png").all (fun a => (letterForms a).all (· != x)) = true) {u : Text}
    {gs : List Text} (h : pathPattern.Reads u gs) : x ∉ u := by
  obtain ⟨a, f, d, e, rfl, -, ha, hf, hd, he⟩ := exists_of_reads_path h
  rw [show lit "_files/.png" = lit "_files" ++ ('/' :: lit ".png") from rfl, List.all_append,
    List.all_cons, Bool.and_eq_true, Bool.and_eq_true] at hspelt
  obtain ⟨hfiles, hslash, hpng⟩ := hspelt
  have hslash : '/' ≠ x := bne_iff_ne.mp (List.all_eq_true.mp hslash '/' List.mem_cons_self)
  simp only [List.mem_append, List.mem_cons, not_or]
  refine ⟨fun hx => ?_, fun hx => ?_, hslash.symm, fun hx => ?_, fun hx => ?_⟩
  · exact Bool.false_ne_true (hword.symm.trans (ha x hx))
  · exact bne_iff_ne.mp (hf.forall (p := (· != x)) hfiles x hx) rfl
  · exact Bool.false_ne_true (hdecimal.symm.trans (hd x hx))
  · exact bne_iff_ne.mp (he.forall (p := (· != x)) hpng x hx) rfl

/-! ## Mistyped tags -/

/-- Anything up to a `>`, then a name of a kind and a value in quotes. -/
def Attribute (P : Text → Prop) (u : Text) : Prop :=
  ∃ x n v : Text, u = x ++ (n ++ (lit "=\"" ++ (v ++ lit "\""))) ∧ (∀ c ∈ x, c ≠ '>') ∧ P n ∧
    ∀ c ∈ v, c ≠ '"'

/-- The mistyped names of image tags. -/
def names : List Text := [lit "<im", lit "<imge", lit "<image", lit "<i mg"]

/-- A tag with a given name and a source. -/
def Misnamed (name u : Text) : Prop :=
  ∃ o b a : Text, u = o ++ (b ++ a) ∧ o.Spells name ∧ (b ≠ [] ∧ ∀ c ∈ b, isBlank c = true) ∧
    Attribute (fun n => n.Spells (lit "src") ∨ n.Spells (lit "sc")) a

/-- What is taken for a tag whose attribute `src` is mistyped. -/
def Misattributed (u : Text) : Prop :=
  ∃ b o a : Text, u = '<' :: (b ++ (o ++ a)) ∧ (∀ c ∈ b, isBlank c = true) ∧ o.Spells (lit "img") ∧
    Attribute (fun n => n.Spells (lit "s") ∨ n.Spells (lit "sr") ∨ n.Spells (lit "rc") ∨
      n.Spells (lit "scr")) a

/-- The pattern for a mistyped attribute. -/
def misattributed : Pattern :=
  .all [.exactly (lit "<"), .most isBlank, .anyCase (lit "img"),
    attributePattern (.either (.anyCase (lit "s")) (.either (.anyCase (lit "sr"))
      (.either (.anyCase (lit "rc")) (.anyCase (lit "scr")))))]

/-- Mistyped names are looked for first, then mistyped attributes. -/
theorem patterns_eq : patterns = names.map namePattern ++ [misattributed] := rfl

theorem reads_attributePattern_iff {p : Pattern} {P : Text → Prop}
    (hp : ∀ u gs, p.Reads u gs ↔ P u ∧ gs = []) {u : Text} {gs : List Text} :
    (attributePattern p).Reads u gs ↔ Attribute P u ∧ gs = [] := by
  constructor
  · intro h
    obtain ⟨x, _, rfl, hx, h₁⟩ := reads_fewest_seq.mp h
    obtain ⟨n, _, rfl, hn, h₂⟩ := (reads_seq hp).mp h₁
    obtain ⟨_, rfl, h₃⟩ := reads_exactly_seq.mp h₂
    obtain ⟨v, _, rfl, hv, h₄⟩ := reads_most_seq.mp h₃
    obtain ⟨rfl, rfl⟩ := reads_exactly.mp (reads_seq_empty.mp h₄)
    exact ⟨⟨x, n, v, rfl, by simpa using hx, hn, by simpa using hv⟩, rfl⟩
  · rintro ⟨⟨x, n, v, rfl, hx, hn, hv⟩, rfl⟩
    refine reads_fewest_seq.mpr ⟨x, _, rfl, by simpa using hx, ?_⟩
    refine (reads_seq hp).mpr ⟨n, _, rfl, hn, ?_⟩
    refine reads_exactly_seq.mpr ⟨_, rfl, ?_⟩
    refine reads_most_seq.mpr ⟨v, _, rfl, by simpa using hv, ?_⟩
    exact reads_seq_empty.mpr (reads_exactly.mpr ⟨rfl, rfl⟩)

theorem reads_spelling (x u : Text) (gs : List Text) :
    (anyCase x).Reads u gs ↔ u.Spells x ∧ gs = [] := reads_anyCase

theorem reads_either {p q : Pattern} {P Q : Text → Prop} (hp : ∀ u gs, p.Reads u gs ↔ P u ∧ gs = [])
    (hq : ∀ u gs, q.Reads u gs ↔ Q u ∧ gs = []) (u : Text) (gs : List Text) :
    (either p q).Reads u gs ↔ (P u ∨ Q u) ∧ gs = [] :=
  (or_congr (hp u gs) (hq u gs)).trans or_and_right.symm

theorem reads_namePattern_iff {name u : Text} {gs : List Text} :
    (namePattern name).Reads u gs ↔ Misnamed name u ∧ gs = [] := by
  have hnames := reads_either (reads_spelling (lit "src")) (reads_spelling (lit "sc"))
  constructor
  · intro h
    obtain ⟨o, _, rfl, ho, h₁⟩ := reads_anyCase_seq.mp h
    obtain ⟨b, _, rfl, hb, h₂⟩ := reads_oneOrMore_seq.mp h₁
    obtain ⟨ha, rfl⟩ := (reads_attributePattern_iff hnames).mp (reads_seq_empty.mp h₂)
    exact ⟨⟨o, b, _, rfl, ho, hb, ha⟩, rfl⟩
  · rintro ⟨⟨o, b, a, rfl, ho, hb, ha⟩, rfl⟩
    refine reads_anyCase_seq.mpr ⟨o, _, rfl, ho, ?_⟩
    refine reads_oneOrMore_seq.mpr ⟨b, _, rfl, hb, ?_⟩
    exact reads_seq_empty.mpr ((reads_attributePattern_iff hnames).mpr ⟨ha, rfl⟩)

theorem reads_misattributed_iff {u : Text} {gs : List Text} :
    misattributed.Reads u gs ↔ Misattributed u ∧ gs = [] := by
  have hnames := reads_either (reads_spelling (lit "s")) (reads_either (reads_spelling (lit "sr"))
    (reads_either (reads_spelling (lit "rc")) (reads_spelling (lit "scr"))))
  constructor
  · intro h
    obtain ⟨_, rfl, h₁⟩ := reads_exactly_seq.mp h
    obtain ⟨b, _, rfl, hb, h₂⟩ := reads_most_seq.mp h₁
    obtain ⟨o, _, rfl, ho, h₃⟩ := reads_anyCase_seq.mp h₂
    obtain ⟨ha, rfl⟩ := (reads_attributePattern_iff hnames).mp (reads_seq_empty.mp h₃)
    exact ⟨⟨b, o, _, rfl, hb, ho, ha⟩, rfl⟩
  · rintro ⟨⟨b, o, a, rfl, hb, ho, ha⟩, rfl⟩
    refine reads_exactly_seq.mpr ⟨_, rfl, ?_⟩
    refine reads_most_seq.mpr ⟨b, _, rfl, hb, ?_⟩
    refine reads_anyCase_seq.mpr ⟨o, _, rfl, ho, ?_⟩
    exact reads_seq_empty.mpr ((reads_attributePattern_iff hnames).mpr ⟨ha, rfl⟩)

/-! ## Image tags and mistyped tags -/

/-- What stands behind the name of a tag is blank. -/
theorem blank_behind {o b a z x : Text} (ho : o.Spells x) (hb : b ≠ [])
    (hblank : ∀ c ∈ b, isBlank c = true) (h : o ++ (b ++ a) <+: z) :
    ∃ c, z[x.length]? = some c ∧ isBlank c = true := by
  obtain ⟨w, rfl⟩ := h
  obtain ⟨c, b, rfl⟩ := List.exists_cons_of_ne_nil hb
  refine ⟨c, ?_, hblank c List.mem_cons_self⟩
  rw [ho.length_eq, List.append_assoc, List.getElem?_append_right (Nat.le_refl _), Nat.sub_self]
  rfl

/-- No tag with a mistyped name starts where an image tag starts. -/
theorem not_misnamed {attr u v src z name : Text} (hu : Image.IsTag attr u src) (huz : u <+: z)
    (hname : name ∈ names) (hv : Misnamed name v) : ¬ v <+: z := by
  obtain ⟨o, b, x, n, r, rfl, ho, ⟨hb, hblank⟩, -⟩ := hu
  obtain ⟨o', b', a, rfl, ho', ⟨hb', hblank'⟩, -⟩ := hv
  intro hvz
  have hoz : o <+: z := (List.prefix_append o _).trans huz
  have hoz' : o' <+: z := (List.prefix_append o' _).trans hvz
  -- Both tags spell the first five characters of `z`, but in different ways.
  have form {j : Nat} {c : Char} (hc : (lit "<img")[j]? = some c) := ho.exists_form hoz hc
  have form' {j : Nat} {c : Char} (hc : name[j]? = some c) := ho'.exists_form hoz' hc
  obtain ⟨c, hc, hcb⟩ := blank_behind ho hb hblank huz
  obtain ⟨d, hd, hdb⟩ := blank_behind ho' hb' hblank' hvz
  simp only [names, List.mem_cons, List.not_mem_nil, or_false] at hname
  rcases hname with rfl | rfl | rfl | rfl
  · obtain ⟨g, hz, hg⟩ := form (j := 3) (c := 'g') rfl
    obtain rfl := Option.some.inj (hz.symm.trans hd)
    exact Bool.false_ne_true ((eq_false_of_all_forms hg (by decide)).symm.trans hdb)
  · obtain ⟨e, hz, he⟩ := form' (j := 4) (c := 'e') rfl
    obtain rfl := Option.some.inj (hz.symm.trans hc)
    exact Bool.false_ne_true ((eq_false_of_all_forms he (by decide)).symm.trans hcb)
  · obtain ⟨g, hz, hg⟩ := form (j := 3) (c := 'g') rfl
    obtain ⟨a, hz', ha⟩ := form' (j := 3) (c := 'a') rfl
    obtain rfl := Option.some.inj (hz.symm.trans hz')
    exact Bool.false_ne_true ((eq_false_of_all_forms hg (by decide)).symm.trans ha)
  · obtain ⟨m, hz, hm⟩ := form (j := 2) (c := 'm') rfl
    obtain ⟨a, hz', ha⟩ := form' (j := 2) (c := ' ') rfl
    obtain rfl := Option.some.inj (hz.symm.trans hz')
    exact Bool.false_ne_true ((eq_false_of_all_forms hm (by decide)).symm.trans ha)

end Typo

end Worksheet
