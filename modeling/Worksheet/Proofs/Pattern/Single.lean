import Mathlib.Data.List.Forall2
import Worksheet.Proofs.Pattern.Reading

/-!
# Patterns with a single reading

At one place of a text, a pattern can have several readings. Here are patterns
that have at most one (`Pattern.Single`): given texts, and runs of characters
that end where something else begins (`single_run_seq`). What something begins
with is said by `Pattern.Opens`.
-/

namespace Worksheet

/-- A text spells another one, which is written with small letters, in any
case. -/
def Text.Spells (u x : Text) : Prop := List.Forall₂ (fun a c => isLetter a c = true) x u

/-- A run of characters of a class that ends in front of a character of another
class is as long as such a run can be. -/
theorem takeWhile_eq {p : Char → Bool} {t u v : Text} {c : Char} (hu : ∀ b ∈ u, p b = true)
    (hc : p c = false) (h : u ++ c :: v <+: t) : t.takeWhile p = u := by
  obtain ⟨z, rfl⟩ := h
  rw [List.append_assoc, List.takeWhile_append_of_pos hu, List.cons_append,
    List.takeWhile_cons_of_neg (by simp [hc]), List.append_nil]

namespace Pattern

/-! ## What built patterns read -/

theorem reads_exactly {x u : Text} {gs : List Text} :
    (exactly x).Reads u gs ↔ u = x ∧ gs = [] := by
  induction x generalizing u gs with
  | nil => exact Iff.rfl
  | cons a x ih =>
    constructor
    · rintro ⟨v, w, hs, is, ⟨⟨c, hc, rfl⟩, rfl⟩, hw, rfl, rfl⟩
      obtain ⟨rfl, rfl⟩ := ih.mp hw
      exact ⟨by rw [beq_iff_eq.mp hc]; rfl, rfl⟩
    · rintro ⟨rfl, rfl⟩
      exact ⟨[a], x, [], [], ⟨⟨a, beq_self_eq_true a, rfl⟩, rfl⟩, ih.mpr ⟨rfl, rfl⟩, rfl, rfl⟩

theorem reads_anyCase {x u : Text} {gs : List Text} :
    (anyCase x).Reads u gs ↔ u.Spells x ∧ gs = [] := by
  induction x generalizing u gs with
  | nil => simp only [Text.Spells, List.forall₂_nil_left_iff]; exact Iff.rfl
  | cons a x ih =>
    constructor
    · rintro ⟨v, w, hs, is, ⟨⟨c, hc, rfl⟩, rfl⟩, hw, rfl, rfl⟩
      obtain ⟨hx, rfl⟩ := ih.mp hw
      exact ⟨.cons hc hx, rfl⟩
    · rintro ⟨h, rfl⟩
      obtain ⟨c, w, hc, hw, rfl⟩ := List.forall₂_cons_left_iff.mp h
      exact ⟨[c], w, [], [], ⟨⟨c, hc, rfl⟩, rfl⟩, ih.mpr ⟨hw, rfl⟩, rfl, rfl⟩

theorem reads_oneOrMore {p : Char → Bool} {u : Text} {gs : List Text} :
    (oneOrMore p).Reads u gs ↔ u ≠ [] ∧ (∀ c ∈ u, p c = true) ∧ gs = [] := by
  constructor
  · rintro ⟨v, w, hs, is, ⟨⟨c, hc, rfl⟩, rfl⟩, ⟨hw, rfl⟩, rfl, rfl⟩
    exact ⟨by simp, by simpa using ⟨hc, hw⟩, rfl⟩
  · rintro ⟨hne, hu, rfl⟩
    obtain ⟨c, w, rfl⟩ := List.exists_cons_of_ne_nil hne
    simp only [List.mem_cons, forall_eq_or_imp] at hu
    exact ⟨[c], w, [], [], ⟨⟨c, hu.1, rfl⟩, rfl⟩, ⟨hu.2, rfl⟩, rfl, rfl⟩

/-- A part without groups, and something behind it. -/
theorem reads_seq {a b : Pattern} {P : Text → Prop} (ha : ∀ u gs, a.Reads u gs ↔ P u ∧ gs = [])
    {t : Text} {gs : List Text} :
    (a.seq b).Reads t gs ↔ ∃ u v, t = u ++ v ∧ P u ∧ b.Reads v gs := by
  constructor
  · rintro ⟨u, v, hs, is, hu, hv, rfl, rfl⟩
    obtain ⟨hu', rfl⟩ := (ha u hs).mp hu
    exact ⟨u, v, rfl, hu', hv⟩
  · rintro ⟨u, v, rfl, hu, hv⟩
    exact ⟨u, v, [], gs, (ha u []).mpr ⟨hu, rfl⟩, hv, rfl, rfl⟩

theorem reads_exactly_seq {x t : Text} {b : Pattern} {gs : List Text} :
    ((exactly x).seq b).Reads t gs ↔ ∃ v, t = x ++ v ∧ b.Reads v gs := by
  rw [reads_seq fun _ _ => reads_exactly]
  constructor
  · rintro ⟨_, v, rfl, rfl, hv⟩
    exact ⟨v, rfl, hv⟩
  · rintro ⟨v, rfl, hv⟩
    exact ⟨x, v, rfl, rfl, hv⟩

theorem reads_anyCase_seq {x t : Text} {b : Pattern} {gs : List Text} :
    ((anyCase x).seq b).Reads t gs ↔ ∃ u v, t = u ++ v ∧ u.Spells x ∧ b.Reads v gs :=
  reads_seq fun _ _ => reads_anyCase

theorem reads_most_seq {p : Char → Bool} {t : Text} {b : Pattern} {gs : List Text} :
    ((most p).seq b).Reads t gs ↔ ∃ u v, t = u ++ v ∧ (∀ c ∈ u, p c = true) ∧ b.Reads v gs :=
  reads_seq fun _ _ => Iff.rfl

theorem reads_fewest_seq {p : Char → Bool} {t : Text} {b : Pattern} {gs : List Text} :
    ((fewest p).seq b).Reads t gs ↔ ∃ u v, t = u ++ v ∧ (∀ c ∈ u, p c = true) ∧ b.Reads v gs :=
  reads_seq fun _ _ => Iff.rfl

theorem reads_oneOrMore_seq {p : Char → Bool} {t : Text} {b : Pattern} {gs : List Text} :
    ((oneOrMore p).seq b).Reads t gs ↔
      ∃ u v, t = u ++ v ∧ (u ≠ [] ∧ ∀ c ∈ u, p c = true) ∧ b.Reads v gs :=
  reads_seq fun _ _ => reads_oneOrMore.trans and_assoc.symm

/-- A group around a part without groups, and something behind it. -/
theorem reads_group_seq {a b : Pattern} {P : Text → Prop}
    (ha : ∀ u gs, a.Reads u gs ↔ P u ∧ gs = []) {t : Text} {gs : List Text} :
    (a.group.seq b).Reads t gs ↔
      ∃ u v hs, t = u ++ v ∧ P u ∧ b.Reads v hs ∧ gs = u :: hs := by
  constructor
  · rintro ⟨u, v, _, hs, ⟨is, hu, rfl⟩, hv, rfl, rfl⟩
    obtain ⟨hu', rfl⟩ := (ha u is).mp hu
    exact ⟨u, v, hs, rfl, hu', hv, rfl⟩
  · rintro ⟨u, v, hs, rfl, hu, hv, rfl⟩
    exact ⟨u, v, [u], hs, ⟨[], (ha u []).mpr ⟨hu, rfl⟩, rfl⟩, hv, rfl, rfl⟩

theorem reads_seq_empty {a : Pattern} {t : Text} {gs : List Text} :
    (a.seq empty).Reads t gs ↔ a.Reads t gs := by
  constructor
  · rintro ⟨u, _, hs, _, hu, ⟨rfl, rfl⟩, rfl, rfl⟩
    rwa [List.append_nil, List.append_nil]
  · intro h
    exact ⟨t, [], gs, [], h, ⟨rfl, rfl⟩, (List.append_nil t).symm, (List.append_nil gs).symm⟩

/-! ## What a reading begins with -/

/-- Every reading begins with a character of a class. -/
def Opens (a : Pattern) (q : Char → Bool) : Prop :=
  ∀ ⦃u gs⦄, a.Reads u gs → ∃ c v, u = c :: v ∧ q c = true

theorem opens_exactly (c : Char) (x : Text) : (exactly (c :: x)).Opens (· == c) := by
  intro u gs h
  obtain ⟨rfl, -⟩ := reads_exactly.mp h
  exact ⟨c, x, rfl, beq_self_eq_true c⟩

theorem opens_anyCase (a : Char) (x : Text) : (anyCase (a :: x)).Opens (isLetter a) := by
  intro u gs h
  obtain ⟨c, v, hc, -, rfl⟩ := List.forall₂_cons_left_iff.mp (reads_anyCase.mp h).1
  exact ⟨c, v, rfl, hc⟩

theorem opens_oneOrMore (p : Char → Bool) : (oneOrMore p).Opens p := by
  intro u gs h
  obtain ⟨hne, hu, -⟩ := reads_oneOrMore.mp h
  obtain ⟨c, v, rfl⟩ := List.exists_cons_of_ne_nil hne
  exact ⟨c, v, rfl, hu c List.mem_cons_self⟩

theorem Opens.group {a : Pattern} {q : Char → Bool} (h : a.Opens q) : a.group.Opens q := by
  rintro u gs ⟨hs, hu, -⟩
  exact h hu

theorem Opens.either {a b : Pattern} {q : Char → Bool} (ha : a.Opens q) (hb : b.Opens q) :
    (a.either b).Opens q := by
  rintro u gs (h | h)
  · exact ha h
  · exact hb h

theorem Opens.seq {a : Pattern} {q : Char → Bool} (h : a.Opens q) (b : Pattern) :
    (a.seq b).Opens q := by
  rintro u gs ⟨v, w, hs, is, hv, -, rfl, -⟩
  obtain ⟨c, v, rfl, hc⟩ := h hv
  exact ⟨c, v ++ w, rfl, hc⟩

/-- After a run that may be empty, a reading begins with a character of the run
or as what follows does. -/
theorem Opens.most_seq {b : Pattern} {q : Char → Bool} (h : b.Opens q) (p : Char → Bool) :
    ((most p).seq b).Opens fun c => p c || q c := by
  rintro u gs ⟨v, w, hs, is, ⟨hv, -⟩, hw, rfl, -⟩
  cases v with
  | nil =>
    obtain ⟨c, w, rfl, hc⟩ := h hw
    exact ⟨c, w, rfl, by simp [hc]⟩
  | cons c v => exact ⟨c, v ++ w, rfl, by simp [hv c List.mem_cons_self]⟩

/-! ## Single readings -/

/-- At one place of a text there is at most one reading. -/
def Single (a : Pattern) : Prop :=
  ∀ ⦃t u v gs hs⦄, a.Reads u gs → a.Reads v hs → u <+: t → v <+: t → u = v ∧ gs = hs

theorem eq_of_prefix_of_length {t u v : Text} (hu : u <+: t) (hv : v <+: t)
    (h : u.length = v.length) : u = v := by
  rw [List.prefix_iff_eq_take.mp hu, List.prefix_iff_eq_take.mp hv, h]

theorem single_exactly (x : Text) : (exactly x).Single := by
  intro t u v gs hs hu hv _ _
  obtain ⟨rfl, rfl⟩ := reads_exactly.mp hu
  obtain ⟨rfl, rfl⟩ := reads_exactly.mp hv
  exact ⟨rfl, rfl⟩

theorem single_anyCase (x : Text) : (anyCase x).Single := by
  intro t u v gs hs hu hv htu htv
  obtain ⟨hxu, rfl⟩ := reads_anyCase.mp hu
  obtain ⟨hxv, rfl⟩ := reads_anyCase.mp hv
  exact ⟨eq_of_prefix_of_length htu htv (hxu.length_eq.symm.trans hxv.length_eq), rfl⟩

theorem Single.seq {a b : Pattern} (ha : a.Single) (hb : b.Single) : (a.seq b).Single := by
  rintro t _ _ _ _ ⟨u, u', gs, gs', hu, hu', rfl, rfl⟩ ⟨v, v', hs, hs', hv, hv', rfl, rfl⟩ htu htv
  obtain ⟨rfl, rfl⟩ := ha hu hv ((List.prefix_append u u').trans htu)
    ((List.prefix_append v v').trans htv)
  obtain ⟨z, rfl⟩ := htu
  rw [List.append_assoc] at htv
  obtain ⟨rfl, rfl⟩ := hb hu' hv' (List.prefix_append u' z) ((List.prefix_append_right_inj u).mp htv)
  exact ⟨rfl, rfl⟩

/-- A run of characters, and something that begins with a character of another
class. The groups of the run are determined by its text. -/
theorem single_run_seq {a b : Pattern} {p q : Char → Bool} {f : Text → List Text}
    (ha : ∀ u gs, a.Reads u gs → (∀ c ∈ u, p c = true) ∧ gs = f u) (hb : b.Single)
    (ho : b.Opens q) (hq : ∀ c, q c = true → p c = false) : (a.seq b).Single := by
  rintro t _ _ _ _ ⟨u, u', gs, gs', hu, hu', rfl, rfl⟩ ⟨v, v', hs, hs', hv, hv', rfl, rfl⟩ htu htv
  obtain ⟨hpu, rfl⟩ := ha u gs hu
  obtain ⟨hpv, rfl⟩ := ha v hs hv
  obtain ⟨c, w, rfl, hc⟩ := ho hu'
  obtain ⟨d, w', rfl, hd⟩ := ho hv'
  obtain rfl : u = v := (takeWhile_eq hpu (hq c hc) htu).symm.trans
    (takeWhile_eq hpv (hq d hd) htv)
  obtain ⟨z, rfl⟩ := htu
  rw [List.append_assoc] at htv
  obtain ⟨h, rfl⟩ := hb hu' hv' (List.prefix_append _ z) ((List.prefix_append_right_inj u).mp htv)
  exact ⟨by rw [h], rfl⟩

theorem run_most {p : Char → Bool} (u : Text) (gs : List Text) (h : (most p).Reads u gs) :
    (∀ c ∈ u, p c = true) ∧ gs = [] := h

theorem run_oneOrMore {p : Char → Bool} (u : Text) (gs : List Text)
    (h : (oneOrMore p).Reads u gs) : (∀ c ∈ u, p c = true) ∧ gs = [] :=
  (reads_oneOrMore.mp h).2

theorem run_group {a : Pattern} {p : Char → Bool}
    (ha : ∀ u gs, a.Reads u gs → (∀ c ∈ u, p c = true) ∧ gs = []) (u : Text) (gs : List Text)
    (h : a.group.Reads u gs) : (∀ c ∈ u, p c = true) ∧ gs = [u] := by
  obtain ⟨hs, hu, rfl⟩ := h
  obtain ⟨hp, rfl⟩ := ha u hs hu
  exact ⟨hp, rfl⟩

end Pattern

end Worksheet
