import Worksheet.Marks
import Worksheet.Proofs.Number.Digits
import Worksheet.Proofs.Pattern.Weave
import Worksheet.Proofs.Text.Letters

/-!
# The grammar of annotations

* `GradingLine.reads_pattern_iff`: the parts of an annotation;
* `GradingLine.apart`: annotations stand apart. At one place there is at most one,
  as each of its runs ends where the next part begins; and none starts within
  another, as only the first `<` of an annotation has a `p` behind it
  (`GradingLine.reads_front`);
* `GradingLine.reads_canonical`: the line for a number of points is an annotation
  with this number.
-/

namespace Worksheet

/-! ## Texts with no start of a paragraph -/

/-- Within the text, every `<` has a character behind it that is no `p`. -/
def Calm (u : Text) : Prop :=
  ∀ y, '<' :: y <:+ u → ∃ c z, y = c :: z ∧ isLetter 'p' c = false

theorem calm_of_forall {u : Text} (h : ∀ c ∈ u, c ≠ '<') : Calm u :=
  fun _ hy => absurd rfl (h '<' (hy.mem List.mem_cons_self))

theorem Calm.append {u v : Text} (hu : Calm u) (hv : Calm v) : Calm (u ++ v) := by
  intro y hy
  rcases List.suffix_or_suffix_of_suffix hy (List.suffix_append u v) with h | ⟨x, hx⟩
  · exact hv y h
  · cases x with
    | nil => exact hv y (hx ▸ List.suffix_rfl)
    | cons a x =>
      obtain ⟨rfl, rfl⟩ := List.cons_eq_cons.mp hx
      have hs : '<' :: x <:+ u := by
        obtain ⟨z, hz⟩ := hy
        exact ⟨z, List.append_cancel_right (by rw [← hz, List.append_assoc]; rfl)⟩
      obtain ⟨c, z, rfl, hc⟩ := hu x hs
      exact ⟨c, z ++ v, rfl, hc⟩

/-- Whether a text that is spelt in any case is calm. -/
def spelledCalmly : Text → Bool
  | [] => true
  | a :: x =>
    (a != '<' || x.head?.any fun b => (letterForms b).all fun c => !isLetter 'p' c) &&
      (a == '<' || (letterForms a).all (· != '<')) && spelledCalmly x

theorem Text.Spells.calm {u x : Text} (h : u.Spells x) (hx : spelledCalmly x = true) : Calm u := by
  induction h with
  | nil => exact calm_of_forall (by simp)
  | @cons a c x u hac hxu ih =>
    simp only [spelledCalmly, Bool.and_eq_true, Bool.or_eq_true, bne_iff_ne, beq_iff_eq,
      List.all_eq_true] at hx
    obtain ⟨⟨hnext, hform⟩, hx⟩ := hx
    intro y hy
    rcases List.suffix_cons_iff.mp hy with h | h
    · obtain ⟨rfl, rfl⟩ := List.cons_eq_cons.mp h
      rcases hform with rfl | hform
      · cases hxu with
        | nil => simp at hnext
        | @cons b d x u hbd _ =>
          simp only [ne_eq, not_true_eq_false, List.head?_cons, Option.any_some, List.all_eq_true,
            false_or] at hnext
          exact ⟨d, u, rfl, by simpa using hnext d (mem_letterForms hbd)⟩
      · exact absurd rfl (hform '<' (mem_letterForms hac))
    · exact ih hx y h

namespace GradingLine

open Pattern

/-! ## The parts of an annotation -/

theorem reads_unit {u : Text} {gs : List Text} :
    (either (anyCase (lit "mark")) (anyCase (lit "marks"))).Reads u gs ↔
      (u.Spells (lit "mark") ∨ u.Spells (lit "marks")) ∧ gs = [] :=
  (or_congr reads_anyCase reads_anyCase).trans or_and_right.symm

theorem reads_pattern_iff {u : Text} {gs : List Text} :
    pattern.Reads u gs ↔ ∃ o b₁ a b₂ b₃ ds b₄ un z : Text,
      o.Spells (lit "<p") ∧ (b₁ ≠ [] ∧ ∀ c ∈ b₁, isBlank c = true) ∧
      a.Spells (lit "align=\"right\"><b>(total for question") ∧ (∀ c ∈ b₂, isBlank c = true) ∧
      (∀ c ∈ b₃, isBlank c = true) ∧ (ds ≠ [] ∧ ∀ c ∈ ds, isDecimal c = true) ∧
      (∀ c ∈ b₄, isBlank c = true) ∧ (un.Spells (lit "mark") ∨ un.Spells (lit "marks")) ∧
      z.Spells (lit ")</b></p>") ∧
      u = o ++ (b₁ ++ (a ++ (b₂ ++ (lit "=" ++ (b₃ ++ (ds ++ (b₄ ++ (un ++ z)))))))) ∧
      gs = [ds, un] := by
  have reads_digits (u : Text) (gs : List Text) :
      (oneOrMore isDecimal).Reads u gs ↔ (u ≠ [] ∧ ∀ c ∈ u, isDecimal c = true) ∧ gs = [] :=
    reads_oneOrMore.trans and_assoc.symm
  constructor
  · intro h
    obtain ⟨o, _, rfl, ho, h₁⟩ := reads_anyCase_seq.mp h
    obtain ⟨b₁, _, rfl, hb₁, h₂⟩ := reads_oneOrMore_seq.mp h₁
    obtain ⟨a, _, rfl, ha, h₃⟩ := reads_anyCase_seq.mp h₂
    obtain ⟨b₂, _, rfl, hb₂, h₄⟩ := reads_most_seq.mp h₃
    obtain ⟨_, rfl, h₅⟩ := reads_exactly_seq.mp h₄
    obtain ⟨b₃, _, rfl, hb₃, h₆⟩ := reads_most_seq.mp h₅
    obtain ⟨ds, _, _, rfl, hds, h₇, rfl⟩ := (reads_group_seq reads_digits).mp h₆
    obtain ⟨b₄, _, rfl, hb₄, h₈⟩ := reads_most_seq.mp h₇
    obtain ⟨un, z, _, rfl, hun, h₉, rfl⟩ := (reads_group_seq fun _ _ => reads_unit).mp h₈
    obtain ⟨hz, rfl⟩ := reads_anyCase.mp (reads_seq_empty.mp h₉)
    exact ⟨o, b₁, a, b₂, b₃, ds, b₄, un, z, ho, hb₁, ha, hb₂, hb₃, hds, hb₄, hun, hz, rfl, rfl⟩
  · rintro ⟨o, b₁, a, b₂, b₃, ds, b₄, un, z, ho, hb₁, ha, hb₂, hb₃, hds, hb₄, hun, hz, rfl, rfl⟩
    refine reads_anyCase_seq.mpr ⟨o, _, rfl, ho, ?_⟩
    refine reads_oneOrMore_seq.mpr ⟨b₁, _, rfl, hb₁, ?_⟩
    refine reads_anyCase_seq.mpr ⟨a, _, rfl, ha, ?_⟩
    refine reads_most_seq.mpr ⟨b₂, _, rfl, hb₂, ?_⟩
    refine reads_exactly_seq.mpr ⟨_, rfl, ?_⟩
    refine reads_most_seq.mpr ⟨b₃, _, rfl, hb₃, ?_⟩
    refine (reads_group_seq reads_digits).mpr ⟨ds, _, _, rfl, hds, ?_, rfl⟩
    refine reads_most_seq.mpr ⟨b₄, _, rfl, hb₄, ?_⟩
    refine (reads_group_seq fun _ _ => reads_unit).mpr ⟨un, z, _, rfl, hun, ?_, rfl⟩
    exact reads_seq_empty.mpr (reads_anyCase.mpr ⟨hz, rfl⟩)

/-- The number of an annotation has at least one digit. -/
theorem exists_digits {u : Text} {gs : List Text} (h : pattern.Reads u gs) :
    ∃ ds un, gs = [ds, un] ∧ ds ≠ [] := by
  obtain ⟨_, _, _, _, _, ds, _, un, _, _, _, _, _, _, ⟨hds, -⟩, _, _, _, _, rfl⟩ :=
    reads_pattern_iff.mp h
  exact ⟨ds, un, rfl, hds⟩

/-! ## At most one annotation at a place -/

theorem single_pattern : pattern.Single := by
  -- From the last part to the first: each run ends where the next part begins.
  have unit : ∀ u gs, (either (anyCase (lit "mark")) (anyCase (lit "marks"))).Reads u gs →
      (∀ c ∈ u, (c != ')') = true) ∧ gs = [] := by
    intro u gs h
    obtain ⟨hs, rfl⟩ := reads_unit.mp h
    exact ⟨hs.elim (·.forall (by decide)) (·.forall (by decide)), rfl⟩
  have closing : Single (seq (anyCase (lit ")</b></p>")) empty) :=
    (single_anyCase _).seq (single_exactly [])
  have s₉ := single_run_seq (run_group unit) closing ((opens_anyCase ')' (lit "</b></p>")).seq _)
    fun c hc => eq_false_of_all_forms (p := (· != ')')) hc (by decide)
  have o₉ := ((opens_anyCase 'm' (lit "ark")).either (opens_anyCase 'm' (lit "arks"))).group.seq
    (seq (anyCase (lit ")</b></p>")) empty)
  have s₈ := single_run_seq (p := isBlank) run_most s₉ o₉
    fun c hc => eq_false_of_all_forms hc (by decide)
  have o₈ := o₉.most_seq isBlank
  have s₇ := single_run_seq (p := isDecimal) (run_group run_oneOrMore) s₈ o₈ fun c hc => by
    cases hd : isDecimal c with
    | false => rfl
    | true =>
      rw [isBlank_of_isDecimal hd, Bool.false_or] at hc
      exact hd.symm.trans (eq_false_of_all_forms hc (by decide))
  have o₇ := (opens_oneOrMore isDecimal).group.seq
    ((most isBlank).seq ((either (anyCase (lit "mark")) (anyCase (lit "marks"))).group.seq
      (seq (anyCase (lit ")</b></p>")) empty)))
  have s₆ := single_run_seq (p := isBlank) run_most s₇ o₇ fun c hc => isBlank_of_isDecimal hc
  have s₅ := (single_exactly (lit "=")).seq s₆
  have s₄ := single_run_seq (p := isBlank) run_most s₅ ((opens_exactly '=' []).seq _)
    fun c hc => by rw [beq_iff_eq.mp hc]; decide
  have s₃ := (single_anyCase (lit "align=\"right\"><b>(total for question")).seq s₄
  have s₂ := single_run_seq (p := isBlank) run_oneOrMore s₃
    ((opens_anyCase 'a' (lit "lign=\"right\"><b>(total for question")).seq _)
    fun c hc => eq_false_of_all_forms hc (by decide)
  exact (single_anyCase (lit "<p")).seq s₂

/-! ## No annotation within another -/

/-- An annotation starts with a `<` that has a `p` behind it, and holds no other
such place. -/
theorem reads_front {u : Text} {gs : List Text} (h : pattern.Reads u gs) :
    ∃ c v, u = '<' :: c :: v ∧ isLetter 'p' c = true ∧ Calm (c :: v) := by
  obtain ⟨o, b₁, a, b₂, b₃, ds, b₄, un, z, ho, ⟨-, hb₁⟩, ha, hb₂, hb₃, ⟨-, hds⟩, hb₄, hun, hz, rfl, -⟩ :=
    reads_pattern_iff.mp h
  obtain ⟨c₀, v, hc₀, hv, rfl⟩ := List.forall₂_cons_left_iff.mp (ho : o.Spells ['<', 'p'])
  obtain ⟨c, x, hc, hx, rfl⟩ := List.forall₂_cons_left_iff.mp hv
  obtain rfl := List.forall₂_nil_left_iff.mp hx
  obtain rfl : c₀ = '<' := beq_iff_eq.mp (of_all_forms (x := '<') (p := (· == '<')) hc₀ (by decide))
  have blank {b : Text} (hb : ∀ c ∈ b, isBlank c = true) : Calm b :=
    calm_of_forall fun c hc e => absurd (hb c hc) (by rw [e]; decide)
  have hc' : Calm [c] := calm_of_forall fun d hd => by
    obtain rfl := List.mem_singleton.mp hd
    exact bne_iff_ne.mp (of_all_forms (x := 'p') (p := (· != '<')) hc (by decide))
  have hds' : Calm ds :=
    calm_of_forall fun d hd e => absurd (hds d hd) (by rw [e]; decide)
  have hequals : Calm (lit "=") := (by decide : Text.Spells (lit "=") (lit "=")).calm (by decide)
  have hun' : Calm un := hun.elim (·.calm (by decide)) (·.calm (by decide))
  refine ⟨c, _, rfl, hc, ?_⟩
  exact hc'.append ((blank hb₁).append ((ha.calm (by decide)).append ((blank hb₂).append
    (hequals.append ((blank hb₃).append (hds'.append
    ((blank hb₄).append (hun'.append (hz.calm (by decide))))))))))

theorem apart : pattern.Apart where
  nonempty := by
    intro u gs h
    obtain ⟨c, v, rfl, -⟩ := reads_front h
    exact List.cons_ne_nil _ _
  single := single_pattern
  disjoint := by
    intro x y u gs hs h hx hy hu hyu
    obtain ⟨c, v, rfl, hc, -⟩ := reads_front hu
    obtain ⟨d, w, hw, -, hcalm⟩ := reads_front h
    obtain ⟨a, x, rfl⟩ := List.exists_cons_of_ne_nil hx
    obtain ⟨e, y, rfl⟩ := List.exists_cons_of_ne_nil hy
    obtain ⟨-, hxy⟩ := List.cons_eq_cons.mp hw
    obtain rfl : e = '<' := by
      rcases hyu with hyu | hyu
      · exact (List.cons_prefix_cons.mp hyu).1
      · exact (List.cons_prefix_cons.mp hyu).1.symm
    obtain ⟨b, z, rfl, hb⟩ := hcalm y (hxy ▸ List.suffix_append x _)
    obtain rfl : b = c := by
      rcases hyu with hyu | hyu
      · exact (List.cons_prefix_cons.mp (List.cons_prefix_cons.mp hyu).2).1
      · exact (List.cons_prefix_cons.mp (List.cons_prefix_cons.mp hyu).2).1.symm
    rw [hb] at hc
    exact Bool.false_ne_true hc

/-! ## The line as it should be written -/

theorem spells_unitFor (points : Int) :
    (unitFor points).Spells (lit "mark") ∨ (unitFor points).Spells (lit "marks") := by
  rw [unitFor]
  split
  · exact .inl (by decide)
  · exact .inr (by decide)

theorem reads_canonical (n : Nat) : pattern.Reads (canonical n) [decimal n, unitFor n] := by
  have hfront : lit "<p align=\"right\"><b>(Total for question = " =
      lit "<p" ++ ([' '] ++ (lit "align=\"right\"><b>(Total for question" ++
        ([' '] ++ (lit "=" ++ [' '])))) := rfl
  have hblank : ∀ c ∈ [' '], isBlank c = true := List.forall_mem_singleton.mpr (by decide)
  refine reads_pattern_iff.mpr ⟨lit "<p", [' '], lit "align=\"right\"><b>(Total for question", [' '],
    [' '], decimal n, [' '], unitFor n, lit ")</b></p>", by decide, ⟨List.cons_ne_nil _ _, hblank⟩,
    by decide, hblank, hblank, ⟨decimal_ne_nil n, isDecimal_decimal n⟩, hblank,
    spells_unitFor n, by decide, ?_, rfl⟩
  unfold canonical
  simp only [signedDecimal_natCast, hfront, List.append_assoc]

end GradingLine

end Worksheet
