import Mathlib.Algebra.Order.Field.Basic
import Mathlib.Algebra.Order.Floor.Semifield
import Mathlib.Data.Nat.Log
import Mathlib.Data.Rat.Cast.Order
import Mathlib.Tactic.FieldSimp
import Mathlib.Tactic.Linarith
import Mathlib.Tactic.Positivity
import Mathlib.Tactic.Ring
import Worksheet.Number.Shortest

/-!
# Rounding to a floating-point number

A fraction between the bounds of a number (`Binary64.Within`) is rounded to this number:
`Binary64.ofRatio_of_within`, and `Binary64.ofDecimal_of_within` for decimal digits with
an exponent.
-/

namespace Worksheet

/-! ## Rounding to an integer -/

/-- The quotient is rounded to an integer if it is at most one half away; exactly one half
only if the integer is even. -/
theorem roundDiv_eq {num den q : Nat} (hden : 0 < den) (hlow : 2 * (q * den) ≤ 2 * num + den)
    (hhigh : 2 * num ≤ 2 * (q * den) + den)
    (hodd : q % 2 = 1 → 2 * (q * den) < 2 * num + den ∧ 2 * num < 2 * (q * den) + den) :
    roundDiv num den = q := by
  have hdiv := Nat.div_add_mod' num den
  have hmod := Nat.mod_lt num hden
  -- The quotient that is rounded down is `q`, or the number before it.
  have hle : num / den ≤ q := Nat.lt_succ_iff.mp ((Nat.div_lt_iff_lt_mul hden).mpr (by
    rw [Nat.succ_mul]
    omega))
  have hge : q ≤ num / den + 1 := Nat.lt_succ_iff.mp (Nat.lt_of_mul_lt_mul_right (a := den) (by
    rw [Nat.succ_mul, Nat.succ_mul]
    omega))
  rcases Nat.lt_or_eq_of_le hle with hlt | heq
  · obtain rfl : q = num / den + 1 := by omega
    rw [Nat.add_mul, Nat.one_mul] at hlow hhigh hodd
    have hup : ¬ (2 * (num % den) < den || (2 * (num % den) == den && num / den % 2 == 0)) = true := by
      simp only [Bool.or_eq_true, Bool.and_eq_true, decide_eq_true_eq, beq_iff_eq, not_or, not_and]
      refine ⟨by omega, fun htie heven => ?_⟩
      have := hodd (by omega)
      omega
    simp only [roundDiv, hup, Bool.false_eq_true, if_false]
  · rw [← heq] at hlow hhigh hodd
    have hdown : (2 * (num % den) < den || (2 * (num % den) == den && num / den % 2 == 0)) = true := by
      simp only [Bool.or_eq_true, Bool.and_eq_true, decide_eq_true_eq, beq_iff_eq]
      by_cases htie : 2 * (num % den) = den
      · refine .inr ⟨htie, Nat.mod_two_not_eq_one.mp fun hq => ?_⟩
        have := hodd hq
        omega
      · exact .inl (by omega)
    simp only [roundDiv, hdown, if_true]
    exact heq

namespace Binary64

/-! ## Between the bounds -/

/-- The value of a fraction. -/
def Ratio.val (r : Ratio) : ℚ := r.num / r.den

/-- A fraction lies between the bounds of `m · 2 ^ (e - 1074)`, and on one of them only if
`m` is even. -/
def Within (m e : Nat) (x : ℚ) : Prop :=
  ((bounds m e).1.val ≤ x ∧ x ≤ (bounds m e).2.val) ∧
    (m % 2 = 1 → (bounds m e).1.val < x ∧ x < (bounds m e).2.val)

theorem units_pos : 0 < units := by decide +kernel

/-- The number of quarters of the last place at which the lower bound is. -/
def lowQuarters (m e : Nat) : Nat := if m = 2 ^ 52 ∧ 0 < e then 4 * m - 1 else 4 * m - 2

theorem within_iff {m e num den : Nat} (hden : 0 < den) :
    Within m e (num / den) ↔
      (lowQuarters m e * (2 ^ e * den) ≤ 4 * (num * units) ∧
        4 * (num * units) ≤ (4 * m + 2) * (2 ^ e * den)) ∧
      (m % 2 = 1 → lowQuarters m e * (2 ^ e * den) < 4 * (num * units) ∧
        4 * (num * units) < (4 * m + 2) * (2 ^ e * den)) := by
  have hunits : (0 : ℚ) < ((4 * units : Nat) : ℚ) := by exact_mod_cast Nat.mul_pos (by decide) units_pos
  have hden' : (0 : ℚ) < (den : ℚ) := by exact_mod_cast hden
  have hlow : (bounds m e).1 = ⟨lowQuarters m e * 2 ^ e, 4 * units⟩ := rfl
  have hhigh : (bounds m e).2 = ⟨(4 * m + 2) * 2 ^ e, 4 * units⟩ := rfl
  have hnum : num * (4 * units) = 4 * (num * units) := Nat.mul_left_comm ..
  rw [Within, hlow, hhigh]
  simp only [Ratio.val]
  rw [div_le_div_iff₀ hunits hden', div_le_div_iff₀ hden' hunits, div_lt_div_iff₀ hunits hden',
    div_lt_div_iff₀ hden' hunits]
  simp only [← Nat.cast_mul, Nat.cast_le, Nat.cast_lt, Nat.mul_assoc, hnum]

theorem lowQuarters_mul {m : Nat} (hm : m ≠ 0) (e q : Nat) :
    4 * (m * q) ≤ lowQuarters m e * q + 2 * q ∧
      (m = 2 ^ 52 ∧ 0 < e → lowQuarters m e * q + q = 4 * (m * q)) := by
  have hle : q ≤ m * q := Nat.le_mul_of_pos_left q (Nat.pos_of_ne_zero hm)
  rw [lowQuarters]
  split
  · rw [Nat.sub_mul, Nat.mul_assoc]
    omega
  · rename_i h
    rw [Nat.sub_mul, Nat.mul_assoc]
    exact ⟨by omega, fun h' => absurd h' h⟩

/-! ## Rounding to the format -/

theorem carry_of_lt {m e : Nat} (s : Bool) (hm : m < 2 ^ 53) (he : e ≤ 2045) :
    carry s m e = finite s m e := by
  have hne : m ≠ Nat.pow 2 53 := Nat.ne_of_lt hm
  simp only [carry, if_neg hne, if_pos he]

theorem carry_two_pow {e : Nat} (s : Bool) (he : e + 1 ≤ 2045) :
    carry s (2 ^ 53) e = finite s (2 ^ 52) (e + 1) := by
  have heq : 2 ^ 53 = Nat.pow 2 53 := rfl
  simp only [carry, if_pos heq, if_pos he]
  rfl

/-- A fraction is rounded in units of the last place: of its whole part in parts of the
format, 53 bits are kept. -/
theorem ofRatio_eq_carry {num den n k : Nat} (s : Bool) (hden : 0 < den) (hn : num * units = n)
    (hlt : n < 2 ^ (53 + k) * den) (hge : k = 0 ∨ 2 ^ (52 + k) * den ≤ n) :
    ofRatio s num den = carry s (roundDiv n (den * 2 ^ k)) k := by
  subst hn
  have hdiv : num * units / den < 2 ^ (53 + k) := (Nat.div_lt_iff_lt_mul hden).mpr hlt
  have hlog : (num * units / den).log2 - 52 = k := by
    by_cases hzero : num * units / den = 0
    · have hk : k = 0 := hge.resolve_right fun h => by
        have := (Nat.le_div_iff_mul_le hden).mpr h
        rw [hzero] at this
        exact absurd this (Nat.not_le.mpr (Nat.pow_pos (by decide)))
      rw [hzero, hk]
      rfl
    · have hup := (Nat.log2_lt hzero).mpr hdiv
      rcases hge with rfl | h
      · omega
      · have := (Nat.le_log2 hzero).mpr ((Nat.le_div_iff_mul_le hden).mpr h)
        omega
  show carry s (roundDiv (num * units) (den * 2 ^ ((num * units / den).log2 - 52))) _ = _
  rw [hlog]

/-- A fraction between the bounds of a number is rounded to it. Just below a power of two it
has one bit more before it is rounded up. -/
theorem ofRatio_of_within {s : Bool} {m e num den : Nat} (hm : m ≠ 0) (hc : Canonical (finite s m e))
    (hden : 0 < den) (h : Within m e (num / den)) : ofRatio s num den = finite s m e := by
  obtain ⟨hfits, hnormal, hexp⟩ := hc
  replace hfits : m < 2 ^ 53 := hfits
  replace hnormal : e = 0 ∨ 2 ^ 52 ≤ m := hnormal
  obtain ⟨⟨hlow, hhigh⟩, hodd⟩ := (within_iff hden).mp h
  obtain ⟨n, hn⟩ : ∃ n, num * units = n := ⟨_, rfl⟩
  rw [hn] at hlow hhigh hodd
  have hpos : 0 < 2 ^ e * den := Nat.mul_pos (Nat.pow_pos (by decide)) hden
  obtain ⟨hquarters, hbinade⟩ := lowQuarters_mul hm e (2 ^ e * den)
  have hsplit (k : Nat) : 2 ^ (k + e) * den = 2 ^ k * (2 ^ e * den) := by
    rw [Nat.pow_add, Nat.mul_assoc]
  have hwide : (4 * m + 2) * (2 ^ e * den) = 4 * (m * (2 ^ e * den)) + 2 * (2 ^ e * den) := by ring
  have hbelow : m * (2 ^ e * den) + 2 ^ e * den ≤ 2 ^ 53 * (2 ^ e * den) := by
    rw [← Nat.succ_mul]
    exact Nat.mul_le_mul_right _ hfits
  generalize hq : 2 ^ e * den = q at *
  have hrounded {k : Nat} {a : Nat} (hlt : n < 2 ^ (53 + k) * den) (hge : k = 0 ∨ 2 ^ (52 + k) * den ≤ n)
      (hround : roundDiv n (den * 2 ^ k) = a) : ofRatio s num den = carry s a k := by
    rw [ofRatio_eq_carry s hden hn hlt hge, hround]
  by_cases hge : e = 0 ∨ 2 ^ 52 * q ≤ n
  · have hround : roundDiv n (den * 2 ^ e) = m := by
      rw [Nat.mul_comm den, hq]
      refine roundDiv_eq hpos (by omega) (by omega) fun hm2 => ?_
      have := hodd hm2
      omega
    rw [hrounded (by rw [hsplit]; omega) (hge.imp_right fun h => by rwa [hsplit]) hround]
    exact carry_of_lt s hfits hexp
  · obtain ⟨he, hbelow'⟩ := not_or.mp hge
    rw [Nat.not_le] at hbelow'
    obtain rfl : m = 2 ^ 52 := by
      refine Nat.le_antisymm (Nat.not_lt.mp fun hgt => ?_) (hnormal.resolve_left he)
      have := Nat.mul_le_mul_right q (Nat.succ_le_of_lt hgt)
      rw [Nat.succ_mul] at this
      omega
    have hquarter := hbinade ⟨rfl, Nat.pos_of_ne_zero he⟩
    obtain ⟨k, rfl⟩ := Nat.exists_eq_succ_of_ne_zero he
    have hhalf : q = 2 * (den * 2 ^ k) := by
      rw [← hq, Nat.pow_succ]
      ring
    have hround : roundDiv n (den * 2 ^ k) = 2 ^ 53 := by
      refine roundDiv_eq (Nat.mul_pos hden (Nat.pow_pos (by decide))) (by omega) (by omega) fun h => ?_
      exact absurd h (by decide)
    have hpower (j : Nat) : 2 ^ (j + 1 + k) * den = 2 ^ j * q := by
      rw [hhalf, Nat.pow_add, Nat.pow_succ]
      ring
    rw [hrounded (by rw [show 53 + k = 52 + 1 + k from rfl, hpower]; omega)
      (.inr (by rw [show 52 + k = 51 + 1 + k from rfl, hpower]; omega)) hround]
    exact carry_two_pow s hexp

/-! ## Decimal digits -/

theorem two_le_lowQuarters {m : Nat} (hm : m ≠ 0) (e : Nat) : 2 ≤ lowQuarters m e := by
  rw [lowQuarters]
  split <;> omega

theorem Within.pos {m e : Nat} {x : ℚ} (hm : m ≠ 0) (h : Within m e x) : 0 < x := by
  have hlow : (0 : ℚ) < (bounds m e).1.val := by
    have := two_le_lowQuarters hm e
    refine div_pos ?_ ?_
    · exact Nat.cast_pos.mpr (Nat.mul_pos (by omega : 0 < lowQuarters m e) (Nat.pow_pos (by decide)))
    · exact Nat.cast_pos.mpr (Nat.mul_pos (by decide) units_pos)
  exact lt_of_lt_of_le hlow h.1.1

/-- The range of the format: what lies between bounds is neither too small nor too large. -/
theorem Within.range {m e num den : Nat} (hm : m ≠ 0) (hm' : m < 2 ^ 53) (hden : 0 < den)
    (h : Within m e (num / den)) :
    den ≤ num * (2 * units) ∧ num * (4 * units) ≤ 2 ^ (55 + e) * den := by
  obtain ⟨⟨hlow, hhigh⟩, -⟩ := (within_iff hden).mp h
  constructor
  · have := Nat.mul_le_mul (two_le_lowQuarters hm e) (Nat.le_mul_of_pos_left den (Nat.two_pow_pos e))
    have hassoc : num * (2 * units) = 2 * (num * units) := Nat.mul_left_comm ..
    omega
  · have := Nat.mul_le_mul_right (2 ^ e * den) (show 4 * m + 2 ≤ 2 ^ 55 by omega)
    have hassoc : num * (4 * units) = 4 * (num * units) := Nat.mul_left_comm ..
    rw [Nat.pow_add, Nat.mul_assoc]
    omega

/-- The largest numbers have less than 401 digits before the point. -/
theorem exists_pow_gt : ∃ j ≤ 401, ∀ e ≤ 2045, 2 ^ (55 + e) < 10 ^ j * (4 * units) := by
  have hmono {e k : Nat} (h : e ≤ k) : 2 ^ (55 + e) ≤ Nat.pow 2 (55 + k) :=
    Nat.pow_le_pow_right (by decide) (Nat.add_le_add_left h 55)
  have hmost : ∃ j ≤ 401, Nat.pow 2 (55 + 2045) < Nat.pow 10 j * (4 * units) :=
    ⟨401, Nat.le_refl _, by decide +kernel⟩
  obtain ⟨j, hj, hlt⟩ := hmost
  exact ⟨j, hj, fun e he => Nat.lt_of_le_of_lt (hmono he) hlt⟩

/-- The smallest numbers have less than 400 zeros behind the point. -/
theorem exists_pow_gt_units : ∃ j ≤ 400, 2 * units < 10 ^ j := by
  have : ∃ j ≤ 400, 2 * units < Nat.pow 10 j := ⟨400, Nat.le_refl _, by decide +kernel⟩
  exact this

/-- How many decimal digits a number of so many bits has at least and at most. -/
theorem pow_log2_le {n : Nat} (hn : n ≠ 0) : 10 ^ (n.log2 / 4) ≤ n ∧ n < 10 ^ (n.log2 + 1) := by
  constructor
  · calc 10 ^ (n.log2 / 4) ≤ 16 ^ (n.log2 / 4) := Nat.pow_le_pow_left (by decide) _
      _ = 2 ^ (4 * (n.log2 / 4)) := (Nat.pow_mul 2 4 _).symm
      _ ≤ 2 ^ n.log2 := Nat.pow_le_pow_right (by decide) (Nat.mul_div_le _ 4)
      _ ≤ n := Nat.log2_self_le hn
  · exact Nat.lt_of_lt_of_le Nat.lt_log2_self (Nat.pow_le_pow_left (by decide) _)

/-- A fraction between the bounds of a number is not too large to be rounded. -/
theorem not_le_of_range {e num den j : Nat} (he : e ≤ 2045) (hden : 0 < den)
    (h : num * (4 * units) ≤ 2 ^ (55 + e) * den) (hj : 401 ≤ j) : ¬ 10 ^ j * den ≤ num := fun hle => by
  obtain ⟨i, hi, htop⟩ := exists_pow_gt
  have hpow : 10 ^ i * den ≤ num :=
    Nat.le_trans (Nat.mul_le_mul_right den (Nat.pow_le_pow_right (by decide) (Nat.le_trans hi hj))) hle
  have hlt := Nat.mul_lt_mul_of_pos_right (htop e he) hden
  have hle := Nat.mul_le_mul_right (4 * units) hpow
  rw [Nat.mul_right_comm] at hle
  exact absurd (Nat.lt_of_le_of_lt h hlt) (Nat.not_lt.mpr hle)

/-- Decimal digits between the bounds of a number are rounded to it. -/
theorem ofDecimal_of_within {s : Bool} {m e n : Nat} {k : Int} (hm : m ≠ 0)
    (hc : Canonical (finite s m e)) (h : Within m e (n * 10 ^ k)) : ofDecimal s n k = finite s m e := by
  have hn : n ≠ 0 := by
    rintro rfl
    have := h.pos hm
    simp at this
  obtain ⟨hsmall, hlarge⟩ := pow_log2_le hn
  rw [ofDecimal, if_neg hn]
  simp only
  rcases Int.eq_nat_or_neg k with ⟨j, rfl | rfl⟩
  · have hval : (n : ℚ) * 10 ^ (j : Int) = ((n * 10 ^ j : Nat) : ℚ) / (1 : Nat) := by
      simp
    rw [hval] at h
    obtain ⟨-, hhigh⟩ := h.range hm hc.1 Nat.one_pos
    have hbig : ¬ ((j : Int) + n.log2 / 4 > 400) := fun hgt => by
      refine not_le_of_range hc.2.2 Nat.one_pos hhigh (j := n.log2 / 4 + j) (by omega) ?_
      rw [Nat.mul_one, Nat.pow_add]
      exact Nat.mul_le_mul_right _ hsmall
    rw [if_neg hbig, if_neg (by omega), if_neg (by omega), Int.natAbs_natCast]
    exact ofRatio_of_within hm hc Nat.one_pos h
  · have hden : 0 < 10 ^ j := Nat.pow_pos (by decide)
    have hval : (n : ℚ) * 10 ^ (-(j : Int)) = (n : ℚ) / ((10 ^ j : Nat) : ℚ) := by
      rw [zpow_neg, zpow_natCast, div_eq_mul_inv]
      push_cast
      rfl
    rw [hval] at h
    obtain ⟨hlow, hhigh⟩ := h.range hm hc.1 hden
    have hbig : ¬ (-(j : Int) + n.log2 / 4 > 400) := fun hgt => by
      refine not_le_of_range hc.2.2 hden hhigh (j := n.log2 / 4 - j) (by omega) ?_
      rw [← Nat.pow_add, Nat.sub_add_cancel (by omega)]
      exact hsmall
    have htiny : ¬ (-(j : Int) + n.log2 < -400) := fun hlt => by
      obtain ⟨i, hi, hunits⟩ := exists_pow_gt_units
      have hpow : 10 ^ (n.log2 + 1) * 10 ^ i ≤ 10 ^ j := by
        rw [← Nat.pow_add]
        exact Nat.pow_le_pow_right (by decide) (by omega)
      have := Nat.mul_lt_mul_of_lt_of_lt hlarge hunits
      exact absurd (Nat.lt_of_le_of_lt hlow this) (Nat.not_lt.mpr hpow)
    rw [if_neg hbig, if_neg htiny]
    by_cases hj : j = 0
    · subst hj
      rw [if_neg (by decide)]
      have := ofRatio_of_within hm hc Nat.one_pos h
      simpa using this
    · rw [if_pos (by omega), Int.natAbs_neg, Int.natAbs_natCast]
      exact ofRatio_of_within hm hc hden h

end Binary64

end Worksheet
