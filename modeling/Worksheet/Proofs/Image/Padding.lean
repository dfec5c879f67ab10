import Worksheet.Image
import Worksheet.Proofs.Fault
import Worksheet.Proofs.Number.Digits
import Worksheet.Proofs.Pattern.Weave

/-!
# Padded numbers of images

The number in a source stands between a slash and a dot. Such places stand apart
(`Image.apart_numberPattern`), so behind a text without one the next one is found, whatever
the text ends with. What `zeroPad` writes there is read again:

* `zeroPad_eq_ok_iff`: when a number can be padded, and what comes out;
* `Image.number_append`: the number behind a text that has none;
* `Image.number_zeroPad`: padding a number and reading it again.
-/

namespace Worksheet

/-! ## Padding -/

theorem writeInteger_eq_ok_iff {i : Int} {ds : Text} :
    writeInteger i = .ok ds ↔ i.natAbs < writeLimit ∧ signedDecimal i = ds := by
  rw [writeInteger]
  split
  · rename_i h
    rw [Except.ok.injEq, and_iff_right h]
  · rename_i h
    exact iff_of_false nofun fun h' => h h'.1

/-- An integer that is not too long is padded to every width that fits into a machine word. -/
theorem zeroPad_eq_ok_iff {i width : Int} {ds : Text} :
    zeroPad i width = .ok ds ↔
      i.natAbs < writeLimit ∧ (-wordLimit ≤ width ∧ width < wordLimit) ∧
        ds = zeroFill width.toNat (signedDecimal i) := by
  rw [zeroPad, bind_eq_ok]
  simp only [writeInteger_eq_ok_iff, and_assoc, exists_and_left, exists_eq_left']
  refine and_congr_right fun _ => ?_
  split
  · rename_i h
    rw [and_iff_right h.1, and_iff_right h.2, Except.ok.injEq, eq_comm]
  · rename_i h
    exact iff_of_false nofun fun h' => h ⟨h'.1, h'.2.1⟩

theorem lt_writeLimit {n : Nat} (h : (decimal n).length ≤ digitLimit) : n < writeLimit := by
  rw [← digitsValue_decimal n]
  unfold writeLimit
  exact digitsValue_lt_of_length_le h

namespace Image

open Pattern

/-! ## Where a number stands -/

theorem reads_numberPattern_iff {u : Text} {gs : List Text} :
    numberPattern.Reads u gs ↔
      ∃ ds, u = '/' :: (ds ++ ['.']) ∧ (ds ≠ [] ∧ ∀ c ∈ ds, isDecimal c = true) ∧ gs = [ds] := by
  have reads_digits (u : Text) (gs : List Text) :
      (oneOrMore isDecimal).Reads u gs ↔ (u ≠ [] ∧ ∀ c ∈ u, isDecimal c = true) ∧ gs = [] :=
    reads_oneOrMore.trans and_assoc.symm
  constructor
  · intro h
    obtain ⟨_, rfl, h₁⟩ := reads_exactly_seq.mp h
    obtain ⟨ds, _, _, rfl, hds, h₂, rfl⟩ := (reads_group_seq reads_digits).mp h₁
    obtain ⟨rfl, rfl⟩ := reads_exactly.mp (reads_seq_empty.mp h₂)
    exact ⟨ds, rfl, hds, rfl⟩
  · rintro ⟨ds, rfl, hds, rfl⟩
    refine reads_exactly_seq.mpr ⟨_, rfl, ?_⟩
    refine (reads_group_seq reads_digits).mpr ⟨ds, _, _, rfl, hds, ?_, rfl⟩
    exact reads_seq_empty.mpr (reads_exactly.mpr ⟨rfl, rfl⟩)

/-- The places of numbers stand apart: behind its first character, none of them holds a
slash. -/
theorem apart_numberPattern : numberPattern.Apart where
  nonempty := by
    intro u gs h
    obtain ⟨ds, rfl, -⟩ := reads_numberPattern_iff.mp h
    exact List.cons_ne_nil _ _
  single := by
    have closing : Single (seq (exactly (lit ".")) empty) :=
      (single_exactly _).seq (single_exactly [])
    have digits := single_run_seq (p := isDecimal) (run_group run_oneOrMore) closing
      ((opens_exactly '.' []).seq empty) fun c hc => by rw [beq_iff_eq.mp hc]; decide
    exact (single_exactly (lit "/")).seq digits
  disjoint := by
    intro x y u gs hs h hx hy hu hyu
    obtain ⟨ds, hxy, ⟨-, hds⟩, -⟩ := reads_numberPattern_iff.mp h
    obtain ⟨es, rfl, -⟩ := reads_numberPattern_iff.mp hu
    obtain ⟨a, x, rfl⟩ := List.exists_cons_of_ne_nil hx
    obtain ⟨b, y, rfl⟩ := List.exists_cons_of_ne_nil hy
    obtain rfl : b = '/' := by
      rcases hyu with hyu | hyu
      · exact (List.cons_prefix_cons.mp hyu).1
      · exact (List.cons_prefix_cons.mp hyu).1.symm
    obtain ⟨-, hrest⟩ := List.cons_eq_cons.mp hxy
    have hslash : '/' ∈ ds ++ ['.'] := hrest ▸ List.mem_append_right x List.mem_cons_self
    rcases List.mem_append.mp hslash with hslash | hslash
    · exact absurd (hds '/' hslash) (by decide)
    · exact absurd (List.mem_singleton.mp hslash) (by decide)

/-- The number behind a text that has none. -/
theorem number_append {front ds : Text} (hfront : numberPattern.find? front = none)
    (hds : ds ≠ [] ∧ ∀ c ∈ ds, isDecimal c = true) (hlen : ds.length ≤ digitLimit) (rest : Text) :
    number (front ++ '/' :: (ds ++ '.' :: rest)) = .ok (some (digitsValue ds)) := by
  have hreads : numberPattern.Reads ('/' :: (ds ++ ['.'])) [ds] :=
    reads_numberPattern_iff.mpr ⟨ds, rfl, hds, rfl⟩
  have hsrc : front ++ '/' :: (ds ++ '.' :: rest) = front ++ ('/' :: (ds ++ ['.']) ++ rest) := by
    rw [List.cons_append, List.append_assoc, List.singleton_append]
  have hfind : numberPattern.find? (front ++ '/' :: (ds ++ '.' :: rest)) =
      some ⟨0 + front.length, '/' :: (ds ++ ['.']), [ds]⟩ := by
    rw [hsrc]
    exact findFrom_free_append apart_numberPattern (find?_eq_none_iff.mp hfront) hreads
  have hread : readDigits ds = .ok (digitsValue ds) := if_pos hlen
  rw [number, hfind]
  show some <$> readDigits ds = _
  rw [hread]
  rfl

/-! ## Padding and reading -/

/-- A number that is not too long, padded to a width that is not too large, is as long as the
larger of the width and the number of its digits. Behind a slash and in front of a dot it is
read again, also if other text without a number stands in front of the slash. -/
theorem number_zeroPad {n : Nat} {width : Int} (hn : Nat.log 10 n + 1 ≤ digitLimit)
    (hwidth : -wordLimit ≤ width ∧ width ≤ digitLimit) {front : Text}
    (hfront : numberPattern.find? front = none) (rest : Text) :
    ∃ ds, zeroPad n width = .ok ds ∧ (ds.length : Int) = max width (Nat.log 10 n + 1 : Nat) ∧
      number (front ++ '/' :: (ds ++ '.' :: rest)) = .ok (some n) := by
  rw [← length_decimal] at hn ⊢
  have hpos := List.length_pos_iff.mpr (decimal_ne_nil n)
  have hlen := length_zeroFill_decimal width.toNat n
  have hdigits : ∀ c ∈ zeroFill width.toNat (decimal n), isDecimal c = true := by
    intro c hc
    rcases mem_zeroFill hc with rfl | hc
    · decide
    · exact isDecimal_decimal n c hc
  have hword : width < wordLimit := by
    have : (digitLimit : Int) < wordLimit := by decide
    omega
  refine ⟨zeroFill width.toNat (decimal n), ?_, by omega, ?_⟩
  · rw [zeroPad_eq_ok_iff, signedDecimal_natCast]
    exact ⟨lt_writeLimit hn, ⟨hwidth.1, hword⟩, rfl⟩
  · rw [number_append hfront ⟨List.length_pos_iff.mp (by omega), hdigits⟩ (by omega),
      digitsValue_zeroFill_decimal]

/-- A front that ends in a slash and digits, so that another slash follows. -/
theorem number_zeroPad_nested :
    ∃ ds, zeroPad (7 : Nat) 3 = .ok ds ∧ (ds.length : Int) = max 3 (Nat.log 10 7 + 1 : Nat) ∧
      number (lit "a/12" ++ '/' :: (ds ++ '.' :: lit "5/9.png")) = .ok (some 7) :=
  number_zeroPad (by decide) (by decide) (by decide +kernel) _

/-- The width must fit into a machine word on the negative side. -/
theorem not_number_zeroPad_of_width_lt :
    ¬ ∀ (n : Nat) (width : Int) (front rest : Text), Nat.log 10 n + 1 ≤ digitLimit →
      width ≤ digitLimit → numberPattern.find? front = none →
      ∃ ds, zeroPad n width = .ok ds ∧ (ds.length : Int) = max width (Nat.log 10 n + 1 : Nat) ∧
        number (front ++ '/' :: (ds ++ '.' :: rest)) = .ok (some n) := by
  intro h
  obtain ⟨ds, hds, -⟩ := h 1 (-wordLimit - 1) [] [] (by decide) (by decide) (by decide)
  obtain ⟨-, ⟨hwidth, -⟩, -⟩ := zeroPad_eq_ok_iff.mp hds
  omega

end Image

end Worksheet
