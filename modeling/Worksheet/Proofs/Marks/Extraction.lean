import Worksheet.Proofs.Marks.Rewriting
import Worksheet.Proofs.Pattern.Scan

/-!
# All annotations of a text

The annotations of a text are the places where it reads like one (`GradingLine.Occurs`),
each of them once: `GradingLine.all` leaves none of them out, although it goes on behind
the last one that it found, because annotations stand apart.
-/

namespace Worksheet.GradingLine

open Pattern

/-- How an annotation is written, with the digits of its number and with its unit. Letters
may have any case, and there may be white space around the equals sign and in front of the
unit. -/
def IsWritten (u digits unit : Text) : Prop :=
  ∃ front b₁ title b₂ b₃ b₄ back : Text,
    u = front ++ (b₁ ++ (title ++ (b₂ ++ ('=' :: (b₃ ++ (digits ++ (b₄ ++ (unit ++ back)))))))) ∧
    front.Spells (lit "<p") ∧ (b₁ ≠ [] ∧ ∀ c ∈ b₁, isBlank c = true) ∧
    title.Spells (lit "align=\"right\"><b>(total for question") ∧ (∀ c ∈ b₂, isBlank c = true) ∧
    (∀ c ∈ b₃, isBlank c = true) ∧ (digits ≠ [] ∧ ∀ c ∈ digits, isDecimal c = true) ∧
    (∀ c ∈ b₄, isBlank c = true) ∧ (unit.Spells (lit "mark") ∨ unit.Spells (lit "marks")) ∧
    back.Spells (lit ")</b></p>")

theorem reads_iff_isWritten {u : Text} {gs : List Text} :
    pattern.Reads u gs ↔ ∃ digits unit, IsWritten u digits unit ∧ gs = [digits, unit] := by
  rw [reads_pattern_iff]
  constructor
  · rintro ⟨o, b₁, a, b₂, b₃, ds, b₄, un, z, ho, hb₁, ha, hb₂, hb₃, hds, hb₄, hun, hz, hu, hgs⟩
    exact ⟨ds, un, ⟨o, b₁, a, b₂, b₃, b₄, z, hu, ho, hb₁, ha, hb₂, hb₃, hds, hb₄, hun, hz⟩, hgs⟩
  · rintro ⟨ds, un, ⟨o, b₁, a, b₂, b₃, b₄, z, hu, ho, hb₁, ha, hb₂, hb₃, hds, hb₄, hun, hz⟩, hgs⟩
    exact ⟨o, b₁, a, b₂, b₃, ds, b₄, un, z, ho, hb₁, ha, hb₂, hb₃, hds, hb₄, hun, hz, hu, hgs⟩

/-- From offset `i` up to offset `j`, a text reads like an annotation. -/
structure Occurs (t : Text) (i j : Nat) (digits unit : Text) : Prop where
  nonempty : i < j
  within : j ≤ t.length
  written : IsWritten (t.slice i j) digits unit

theorem occurs_iff {t : Text} {i j : Nat} {digits unit : Text} :
    Occurs t i j digits unit ↔
      ∃ u, u <+: t.drop i ∧ pattern.Reads u [digits, unit] ∧ j = i + u.length ∧ u = t.slice i j := by
  have hreads {u : Text} : pattern.Reads u [digits, unit] ↔ IsWritten u digits unit := by
    rw [reads_iff_isWritten]
    simp
  constructor
  · intro h
    have hlen := Text.length_slice (n := i) h.within
    have hlt := h.nonempty
    refine ⟨t.slice i j, ?_, hreads.mpr h.written, by omega, rfl⟩
    rw [← Text.slice_append_drop t (Nat.le_of_lt hlt)]
    exact List.prefix_append _ _
  · rintro ⟨u, hpre, hu, rfl, hslice⟩
    have hne := apart.nonempty hu
    have hpos := List.length_pos_iff.mpr hne
    exact ⟨by omega, Text.le_length_of_prefix_drop hpre hne, hslice ▸ hreads.mp hu⟩

/-- The readings of a text are its annotations. -/
theorem mem_scan_iff_occurs {t : Text} {m : Match} :
    m ∈ pattern.scan t ↔
      ∃ digits unit, Occurs t m.start m.stop digits unit ∧ m.text = t.slice m.start m.stop ∧
        m.groups = [digits, unit] := by
  rw [apart.mem_scan_iff]
  constructor
  · rintro ⟨hpre, hreads⟩
    obtain ⟨digits, unit, -, hgroups⟩ := reads_iff_isWritten.mp hreads
    have hslice : m.text = t.slice m.start m.stop := (Text.slice_of_prefix_drop hpre).symm
    exact ⟨digits, unit, occurs_iff.mpr ⟨m.text, hpre, hgroups ▸ hreads, rfl, hslice⟩, hslice, hgroups⟩
  · rintro ⟨digits, unit, hoccurs, htext, hgroups⟩
    obtain ⟨u, hpre, hreads, -, hslice⟩ := occurs_iff.mp hoccurs
    rw [htext, ← hslice, hgroups]
    exact ⟨hpre, hreads⟩

/-- Annotations neither overlap, nor do two of them start at one place. -/
theorem Occurs.eq_or_le {t : Text} {i j i' j' : Nat} {ds un ds' un' : Text} (h : Occurs t i j ds un)
    (h' : Occurs t i' j' ds' un') (hle : i ≤ i') :
    (i = i' ∧ j = j' ∧ ds = ds' ∧ un = un') ∨ j ≤ i' := by
  obtain ⟨u, hpre, hu, rfl, -⟩ := occurs_iff.mp h
  obtain ⟨v, hpre', hv, rfl, -⟩ := occurs_iff.mp h'
  refine (apart.eq_or_le hu hv hpre hpre' hle).imp_left ?_
  rintro ⟨rfl, rfl, hgroups⟩
  obtain ⟨hds, hun⟩ := List.cons_eq_cons.mp hgroups
  exact ⟨rfl, rfl, hds, (List.cons_eq_cons.mp hun).1⟩

/-- What occurs in a text is read there, with the digits and the unit as its groups. -/
theorem Occurs.mem_scan {t : Text} {i j : Nat} {digits unit : Text} (h : Occurs t i j digits unit) :
    ⟨i, t.slice i j, [digits, unit]⟩ ∈ pattern.scan t := by
  obtain ⟨u, hpre, hreads, -, rfl⟩ := occurs_iff.mp h
  exact apart.mem_scan_iff.mpr ⟨hpre, hreads⟩

/-- What holds of the digits of all readings holds of those of all annotations that occur. -/
theorem forall_scan_iff {t : Text} {P : Text → Prop} :
    (∀ m ∈ pattern.scan t, P (m.group 0)) ↔ ∀ i j digits unit, Occurs t i j digits unit → P digits := by
  constructor
  · intro h i j digits unit hoccurs
    exact h _ hoccurs.mem_scan
  · intro h m hm
    obtain ⟨digits, unit, hoccurs, -, hgroups⟩ := mem_scan_iff_occurs.mp hm
    rw [Match.group, hgroups]
    exact h _ _ digits unit hoccurs

/-- An annotation is one of the readings of a text if and only if it occurs there. -/
theorem mem_map_ofReading_iff {t : Text} {a : GradingLine} :
    a ∈ (pattern.scan t).map ofReading ↔
      ∃ i j digits unit, Occurs t i j digits unit ∧
        a = ⟨t.slice i j, digitsValue digits, Text.lower unit, i⟩ := by
  rw [List.mem_map]
  constructor
  · rintro ⟨m, hm, rfl⟩
    obtain ⟨digits, unit, hoccurs, htext, hgroups⟩ := mem_scan_iff_occurs.mp hm
    refine ⟨m.start, m.stop, digits, unit, hoccurs, ?_⟩
    rw [ofReading, Match.group, Match.group, hgroups, htext]
    rfl
  · rintro ⟨i, j, digits, unit, hoccurs, rfl⟩
    exact ⟨_, hoccurs.mem_scan, rfl⟩

/-- The annotations of a text are found unless the number of one has too many digits. Those
that are found are those that occur, one for each place, in the order of their places. No
annotation overlaps another one, and no two start at one place. -/
theorem mem_all_iff_occurs (t : Text) :
    ((∃ as, all t = .ok as) ↔
      ∀ i j digits unit, Occurs t i j digits unit → digits.length ≤ digitLimit) ∧
    (∀ as, all t = .ok as →
      as.Pairwise (fun a b => a.start < b.start) ∧
      ∀ a, a ∈ as ↔ ∃ i j digits unit, Occurs t i j digits unit ∧
        a = ⟨t.slice i j, digitsValue digits, Text.lower unit, i⟩) ∧
    ∀ i j ds un i' j' ds' un', Occurs t i j ds un → Occurs t i' j' ds' un' →
      (i = i' ∧ j = j' ∧ ds = ds' ∧ un = un') ∨ j ≤ i' ∨ j' ≤ i := by
  refine ⟨?_, fun as has => ?_, ?_⟩
  · rw [← forall_scan_iff (P := fun digits => digits.length ≤ digitLimit)]
    exact ⟨fun ⟨as, h⟩ => (all_eq_ok_iff.mp h).1, fun h => ⟨_, all_eq_ok_iff.mpr ⟨h, rfl⟩⟩⟩
  · obtain ⟨-, rfl⟩ := all_eq_ok_iff.mp has
    exact ⟨List.pairwise_map.mpr (apart.pairwise_scan t), fun a => mem_map_ofReading_iff⟩
  · intro i j ds un i' j' ds' un' h h'
    rcases Nat.le_total i i' with hle | hle
    · exact (h.eq_or_le h' hle).imp_right .inl
    · rcases h'.eq_or_le h hle with ⟨rfl, rfl, rfl, rfl⟩ | hbehind
      · exact .inl ⟨rfl, rfl, rfl, rfl⟩
      · exact .inr (.inr hbehind)

/-- Two annotations, the first one with a digit of another script and no white space. -/
def adjoining : Text :=
  lit "<P\talign=\"right\"><b>(TOTAL for question=٢mark)</b></p><p align=\"right\"><b>(Total for question = 1 Mark)</b></p>"

theorem mem_all_iff_occurs_adjoining :
    ∀ a, a ∈ [(⟨lit "<P\talign=\"right\"><b>(TOTAL for question=٢mark)</b></p>", 2, lit "mark", 0⟩ : GradingLine),
        ⟨lit "<p align=\"right\"><b>(Total for question = 1 Mark)</b></p>", 1, lit "mark", 54⟩] ↔
      ∃ i j digits unit, Occurs adjoining i j digits unit ∧
        a = ⟨adjoining.slice i j, digitsValue digits, Text.lower unit, i⟩ :=
  ((mem_all_iff_occurs adjoining).2.1 _ (all_eq_ok_iff.mpr ⟨by decide +kernel, by decide +kernel⟩)).2

end Worksheet.GradingLine
