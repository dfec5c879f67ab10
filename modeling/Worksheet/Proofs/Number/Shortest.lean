import Mathlib.Algebra.Order.Field.Power
import Mathlib.Data.Nat.Cast.Order.Field
import Worksheet.Proofs.Number.Rounding

/-!
# The shortest digits lie between the bounds

The digits that are found for a floating-point number are rounded to it again
(`Binary64.ofDecimal_of_val`): they lie between its bounds (`Binary64.shortest_within`).
With seventeen digits there are always such: then the bounds are more than one apart
(`Binary64.hits_seventeen`).
-/

namespace Worksheet

/-- The value of decimal digits. -/
def Decimal.val (d : Decimal) : ℚ := d.digits * 10 ^ d.exponent

theorem Decimal.val_mul_pow (n k : Nat) (e : Int) : val ⟨n * 10 ^ k, e⟩ = val ⟨n, e + k⟩ := by
  rw [val, val, zpow_add₀ (by norm_num), zpow_natCast]
  push_cast
  ring

/-- Zeros at the end of the digits do not count. -/
theorem Decimal.val_trimmed (fuel : Nat) (d : Decimal) : (d.trimmed fuel).val = d.val := by
  induction fuel generalizing d with
  | zero => rfl
  | succ fuel ih =>
    rw [trimmed]
    split
    · rename_i h
      rw [Bool.and_eq_true, decide_eq_true_eq] at h
      have hdigits : d.digits = d.digits / 10 * 10 := by omega
      rw [ih, val, val]
      conv_rhs => rw [hdigits]
      rw [zpow_add_one₀ (by norm_num)]
      push_cast
      ring
    · rfl

namespace Binary64

variable {low high value : Ratio}

theorem Ratio.val_shift (r : Ratio) (k : Int) : (r.shift k).val = r.val * 10 ^ k := by
  rw [shift]
  split
  · rename_i hk
    obtain ⟨j, rfl⟩ := Int.eq_negSucc_of_lt_zero hk
    simp only [val, Int.natAbs_negSucc, zpow_negSucc, Nat.pow_eq, Nat.cast_mul, Nat.cast_pow]
    rw [div_mul_eq_div_div, ← div_eq_mul_inv]
    rfl
  · rename_i hk
    obtain ⟨j, rfl⟩ := Int.eq_ofNat_of_zero_le (Int.not_lt.mp hk)
    simp only [val, Int.natAbs_natCast, zpow_natCast, Nat.pow_eq, Nat.cast_mul, Nat.cast_pow]
    rw [div_mul_eq_mul_div]
    rfl

theorem Ratio.den_shift_pos {r : Ratio} (h : 0 < r.den) (k : Int) : 0 < (r.shift k).den := by
  rw [shift]
  split
  · exact Nat.mul_pos h (Nat.pow_pos (by decide))
  · exact h

theorem between_iff (hlow : 0 < low.den) (hhigh : 0 < high.den) {closed : Bool} {n : Nat} :
    between closed low high n = true ↔
      (low.val ≤ n ∧ n ≤ high.val) ∧ (closed = false → low.val < n ∧ (n : ℚ) < high.val) := by
  have hlow' : (0 : ℚ) < low.den := Nat.cast_pos.mpr hlow
  have hhigh' : (0 : ℚ) < high.den := Nat.cast_pos.mpr hhigh
  have h₁ : low.val ≤ n ↔ low.num ≤ n * low.den := by
    rw [Ratio.val, div_le_iff₀ hlow']
    exact_mod_cast Iff.rfl
  have h₂ : (n : ℚ) ≤ high.val ↔ n * high.den ≤ high.num := by
    rw [Ratio.val, le_div_iff₀ hhigh']
    exact_mod_cast Iff.rfl
  have h₃ : low.val < n ↔ low.num < n * low.den := by
    rw [Ratio.val, div_lt_iff₀ hlow']
    exact_mod_cast Iff.rfl
  have h₄ : (n : ℚ) < high.val ↔ n * high.den < high.num := by
    rw [Ratio.val, lt_div_iff₀ hhigh']
    exact_mod_cast Iff.rfl
  rw [h₁, h₂, h₃, h₄, between]
  cases closed with
  | false =>
    rw [if_neg (by decide), Bool.and_eq_true, decide_eq_true_eq, decide_eq_true_eq]
    exact ⟨fun h => ⟨⟨Nat.le_of_lt h.1, Nat.le_of_lt h.2⟩, fun _ => h⟩, fun h => h.2 rfl⟩
  | true =>
    rw [if_pos rfl, Bool.and_eq_true, decide_eq_true_eq, decide_eq_true_eq]
    exact ⟨fun h => ⟨h, fun hfalse => absurd hfalse (by decide)⟩, fun h => h.1⟩

/-! ## The search -/

/-- One of the two texts next to a value, with a power of ten, lies between the bounds. -/
def Hits (closed : Bool) (value low high : Ratio) (k : Int) : Prop :=
  between closed (low.shift k) (high.shift k) ((value.shift k).num / (value.shift k).den) = true ∨
    between closed (low.shift k) (high.shift k) ((value.shift k).num / (value.shift k).den + 1) = true

theorem roundDiv_cases (num den : Nat) : roundDiv num den = num / den ∨ roundDiv num den = num / den + 1 := by
  simp only [roundDiv]
  split
  · exact .inl rfl
  · exact .inr rfl

/-- What is found lies between the bounds, if there is something to be found. -/
theorem exists_of_search {closed : Bool} {point : Int} {fuel count : Nat}
    (h : ∃ c, count ≤ c ∧ c < count + fuel ∧ Hits closed value low high (c - point)) :
    ∃ k, (search closed value low high point fuel count).exponent = -k ∧
      between closed (low.shift k) (high.shift k) (search closed value low high point fuel count).digits =
        true := by
  induction fuel generalizing count with
  | zero =>
    obtain ⟨c, hle, hlt, -⟩ := h
    omega
  | succ fuel ih =>
    rw [search]
    simp only
    split
    · rename_i hfits
      refine ⟨_, rfl, ?_⟩
      simp only
      split
      · rename_i hboth
        rw [Bool.and_eq_true] at hboth
        rcases roundDiv_cases (value.shift (count - point)).num (value.shift (count - point)).den with hr | hr
        · rw [hr]
          exact hboth.1
        · rw [hr]
          exact hboth.2
      · split
        · assumption
        · rename_i hlow
          exact (Bool.or_eq_true_iff.mp hfits).resolve_left hlow
    · rename_i hfits
      refine ih ?_
      obtain ⟨c, hle, hlt, hhits⟩ := h
      refine ⟨c, Nat.lt_of_le_of_ne hle fun e => hfits ?_, by omega, hhits⟩
      subst e
      exact Bool.or_eq_true_iff.mpr hhits

/-- Where the bounds are more than one half away from a value on both sides, one of the two
integers next to it lies between them. -/
theorem hits_of_lt {closed : Bool} {k : Int} (hvalue : 0 < value.den) (hlow : 0 < low.den)
    (hhigh : 0 < high.den) (hbelow : (low.shift k).val + 1 / 2 < (value.shift k).val)
    (habove : (value.shift k).val + 1 / 2 < (high.shift k).val) : Hits closed value low high k := by
  have hden : (0 : ℚ) < (value.shift k).den := Nat.cast_pos.mpr (Ratio.den_shift_pos hvalue k)
  have hfloor : ((((value.shift k).num / (value.shift k).den : Nat)) : ℚ) ≤ (value.shift k).val :=
    Nat.cast_div_le
  have hceil : (value.shift k).val < ((((value.shift k).num / (value.shift k).den : Nat)) : ℚ) + 1 := by
    rw [Ratio.val, div_lt_iff₀ hden]
    have := Nat.lt_div_mul_add (Ratio.den_shift_pos hvalue k) (a := (value.shift k).num)
    rw [add_mul, one_mul]
    exact_mod_cast this
  rw [Hits, between_iff (Ratio.den_shift_pos hlow k) (Ratio.den_shift_pos hhigh k),
    between_iff (Ratio.den_shift_pos hlow k) (Ratio.den_shift_pos hhigh k)]
  push_cast
  generalize ((((value.shift k).num / (value.shift k).den : Nat)) : ℚ) = n at *
  rcases le_or_gt ((value.shift k).val - n) (1 / 2) with hnear | hfar
  · exact .inl ⟨⟨by linarith, by linarith⟩, fun _ => ⟨by linarith, by linarith⟩⟩
  · exact .inr ⟨⟨by linarith, by linarith⟩, fun _ => ⟨by linarith, by linarith⟩⟩

/-! ## The number of digits before the point -/

/-- A power of ten with a guessed exponent, less two places, is below the power of two that
it was guessed from. The guess takes the logarithm of two for 0.30103. -/
theorem ten_zpow_le {n g : Int} (hg : g * 100000 ≤ n * 30103) (hlow : -2000 ≤ n) (hhigh : n ≤ 1100) :
    (10 : ℚ) ^ (g - 2) ≤ 2 ^ (n - 1) := by
  by_cases hg2 : 0 ≤ g - 2
  · obtain ⟨a, ha⟩ := Int.eq_ofNat_of_zero_le hg2
    obtain ⟨b, hb⟩ := Int.eq_ofNat_of_zero_le (show 0 ≤ n - 1 by omega)
    -- Ten to the third power is less than two to the tenth.
    have hcube : (10 ^ a) ^ 3 ≤ (2 ^ b) ^ 3 :=
      calc (10 ^ a) ^ 3 = (10 ^ 3) ^ a := Nat.pow_right_comm ..
        _ ≤ (2 ^ 10) ^ a := Nat.pow_le_pow_left (by decide) a
        _ = 2 ^ (10 * a) := (Nat.pow_mul ..).symm
        _ ≤ 2 ^ (b * 3) := Nat.pow_le_pow_right (by decide) (by omega)
        _ = (2 ^ b) ^ 3 := Nat.pow_mul ..
    rw [ha, hb, zpow_natCast, zpow_natCast]
    exact_mod_cast (Nat.pow_le_pow_iff_left (by decide)).mp hcube
  · by_cases hn1 : 0 ≤ n - 1
    · exact (zpow_le_one_of_nonpos₀ (by norm_num) (by omega)).trans (one_le_zpow₀ (by norm_num) hn1)
    · obtain ⟨a, ha⟩ := Int.eq_ofNat_of_zero_le (show 0 ≤ -(g - 2) by omega)
      obtain ⟨b, hb⟩ := Int.eq_ofNat_of_zero_le (show 0 ≤ -(n - 1) by omega)
      -- Two to the 93rd power is less than ten to the 28th.
      have hpow : (2 ^ b) ^ 93 ≤ (10 ^ a) ^ 93 :=
        calc (2 ^ b) ^ 93 = (2 ^ 93) ^ b := Nat.pow_right_comm ..
          _ ≤ (10 ^ 28) ^ b := Nat.pow_le_pow_left (by decide) b
          _ = 10 ^ (28 * b) := (Nat.pow_mul ..).symm
          _ ≤ 10 ^ (a * 93) := Nat.pow_le_pow_right (by decide) (by omega)
          _ = (10 ^ a) ^ 93 := Nat.pow_mul ..
      have hle : (2 ^ b : Nat) ≤ 10 ^ a := (Nat.pow_le_pow_iff_left (by decide)).mp hpow
      rw [show g - 2 = -(a : Int) by omega, show n - 1 = -(b : Int) by omega, zpow_neg, zpow_neg,
        zpow_natCast, zpow_natCast]
      exact inv_anti₀ (by positivity) (by exact_mod_cast hle)

/-- A fraction is more than half of the power of two between the sizes of its parts. -/
theorem two_zpow_lt {r : Ratio} (hnum : r.num ≠ 0) (hden : 0 < r.den) :
    (2 : ℚ) ^ ((r.num.log2 : Int) - r.den.log2 - 1) < r.val := by
  have hden' : (0 : ℚ) < r.den := Nat.cast_pos.mpr hden
  have hn : (2 : ℚ) ^ r.num.log2 ≤ r.num := by exact_mod_cast Nat.log2_self_le hnum
  have hd : (r.den : ℚ) < 2 ^ (r.den.log2 + 1) := by exact_mod_cast Nat.lt_log2_self
  have hpow : (2 : ℚ) ^ ((r.num.log2 : Int) - r.den.log2 - 1) * 2 ^ (r.den.log2 + 1) = 2 ^ r.num.log2 := by
    rw [← zpow_natCast, ← zpow_natCast, ← zpow_add₀ (by norm_num)]
    congr 1
    push_cast
    ring
  rw [Ratio.val, lt_div_iff₀ hden']
  calc _ < (2 : ℚ) ^ ((r.num.log2 : Int) - r.den.log2 - 1) * 2 ^ (r.den.log2 + 1) :=
        mul_lt_mul_of_pos_left hd (by positivity)
    _ = 2 ^ r.num.log2 := hpow
    _ ≤ r.num := hn

/-- A fraction has at least the digits before the point that are counted. -/
theorem ten_zpow_magnitude_le {r : Ratio} (hnum : r.num ≠ 0) (hden : 0 < r.den)
    (hlow : -2000 ≤ (r.num.log2 : Int) - r.den.log2) (hhigh : (r.num.log2 : Int) - r.den.log2 ≤ 1100) :
    (10 : ℚ) ^ (magnitude r - 1) ≤ r.val := by
  have hreaches {k : Int} (h : (r.shift (-k)).den ≤ (r.shift (-k)).num) : (10 : ℚ) ^ k ≤ r.val := by
    have hpos : (0 : ℚ) < (r.shift (-k)).den := Nat.cast_pos.mpr (Ratio.den_shift_pos hden (-k))
    have hone : 1 ≤ (r.shift (-k)).val := by
      rw [Ratio.val, le_div_iff₀ hpos, one_mul]
      exact_mod_cast h
    rw [Ratio.val_shift, zpow_neg, ← div_eq_mul_inv, le_div_iff₀ (by positivity), one_mul] at hone
    exact hone
  simp only [magnitude]
  have hguess := Int.ediv_mul_le (((r.num.log2 : Int) - r.den.log2) * 30103) (b := 100000) (by decide)
  generalize ((r.num.log2 : Int) - r.den.log2) * 30103 / 100000 = g at *
  split
  · rename_i h
    rw [show g + 2 - 1 = g + 1 by ring]
    exact hreaches (by simpa using h)
  · split
    · rename_i h
      rw [show g + 1 - 1 = g by ring]
      exact hreaches (by simpa using h)
    · split
      · rename_i h
        exact hreaches (by simpa using h)
      · rw [show g - 1 - 1 = g - 2 by ring]
        exact (ten_zpow_le hguess hlow hhigh).trans (le_of_lt (two_zpow_lt hnum hden))

/-! ## The digits that are found -/

/-- The bounds of a number are away from it by more than a part of it. -/
theorem bounds_spread {m : Nat} (hm : m ≠ 0) (hfits : m < 2 ^ 53) (e : Nat) :
    (bounds m e).1.val + Ratio.val ⟨m * 2 ^ e, units⟩ / 2 ^ 54 ≤ Ratio.val ⟨m * 2 ^ e, units⟩ ∧
      Ratio.val ⟨m * 2 ^ e, units⟩ + Ratio.val ⟨m * 2 ^ e, units⟩ / 2 ^ 54 ≤ (bounds m e).2.val := by
  have hlow : (bounds m e).1.val = lowQuarters m e / 4 * (2 ^ e / units) := by
    rw [show (bounds m e).1 = ⟨lowQuarters m e * 2 ^ e, 4 * units⟩ from rfl, Ratio.val]
    push_cast
    ring
  have hhigh : (bounds m e).2.val = (4 * m + 2) / 4 * (2 ^ e / units) := by
    rw [show (bounds m e).2 = ⟨(4 * m + 2) * 2 ^ e, 4 * units⟩ from rfl, Ratio.val]
    push_cast
    ring
  have hvalue : Ratio.val ⟨m * 2 ^ e, units⟩ = m * (2 ^ e / units) := by
    rw [Ratio.val]
    push_cast
    ring
  have hunit : (0 : ℚ) < 2 ^ e / units := div_pos (by positivity) (Nat.cast_pos.mpr units_pos)
  have hquarters : (lowQuarters m e : ℚ) / 4 + m / 2 ^ 54 ≤ m := by
    rw [lowQuarters]
    split
    · rename_i h
      rw [h.1]
      norm_num
    · rw [Nat.cast_sub (by omega)]
      have : (m : ℚ) < 2 ^ 53 := by exact_mod_cast hfits
      push_cast
      linarith
  have habove : (m : ℚ) + m / 2 ^ 54 ≤ (4 * m + 2) / 4 := by
    have : (m : ℚ) < 2 ^ 53 := by exact_mod_cast hfits
    linarith
  rw [hlow, hhigh, hvalue]
  generalize (2 : ℚ) ^ e / units = u at *
  constructor
  · calc _ = ((lowQuarters m e : ℚ) / 4 + m / 2 ^ 54) * u := by ring
      _ ≤ m * u := mul_le_mul_of_nonneg_right hquarters (le_of_lt hunit)
  · calc _ = ((m : ℚ) + m / 2 ^ 54) * u := by ring
      _ ≤ (4 * m + 2) / 4 * u := mul_le_mul_of_nonneg_right habove (le_of_lt hunit)

/-- The parts of a number, counted with any number of parts to one that has the size of
`units`, have the digits before the point that are counted. -/
theorem ten_zpow_magnitude_scaled_le {m e u : Nat} (hm : m ≠ 0) (hfits : m < 2 ^ 53) (he : e ≤ 2045)
    (hpos : 0 < u) (hu : u.log2 = 1074) :
    (10 : ℚ) ^ (magnitude ⟨m * 2 ^ e, u⟩ - 1) ≤ Ratio.val ⟨m * 2 ^ e, u⟩ := by
  have hnum : m * 2 ^ e ≠ 0 := Nat.mul_ne_zero hm (Nat.two_pow_pos e).ne'
  have hlog : (m * 2 ^ e).log2 < 53 + e := (Nat.log2_lt hnum).mpr (by
    rw [Nat.pow_add]
    exact Nat.mul_lt_mul_of_pos_right hfits (Nat.two_pow_pos e))
  refine ten_zpow_magnitude_le hnum hpos ?_ ?_
  · show -2000 ≤ ((m * 2 ^ e).log2 : Int) - u.log2
    omega
  · show ((m * 2 ^ e).log2 : Int) - u.log2 ≤ 1100
    omega

theorem log2_units : units.log2 = 1074 := by decide +kernel

theorem den_bounds_pos {m e : Nat} : 0 < (bounds m e).1.den ∧ 0 < (bounds m e).2.den :=
  have hfour : 0 < 4 * units := Nat.mul_pos (by decide) units_pos
  ⟨hfour, hfour⟩

/-- With seventeen digits there is a text between the bounds: then they are more than one
apart. -/
theorem hits_seventeen {closed : Bool} {m e : Nat} (hm : m ≠ 0) (hfits : m < 2 ^ 53) (he : e ≤ 2045) :
    Hits closed ⟨m * 2 ^ e, units⟩ (bounds m e).1 (bounds m e).2
      ((17 : Nat) - magnitude ⟨m * 2 ^ e, units⟩) := by
  have hdigits := ten_zpow_magnitude_scaled_le hm hfits he units_pos log2_units
  generalize magnitude ⟨m * 2 ^ e, units⟩ = point at *
  obtain ⟨hlow, hhigh⟩ := bounds_spread hm hfits e
  have hpos : (0 : ℚ) < 10 ^ ((17 : Nat) - point) := by positivity
  -- The value has seventeen digits, so a part of it is more than one half.
  have hlarge : (10 : ℚ) ^ 16 ≤ Ratio.val ⟨m * 2 ^ e, units⟩ * 10 ^ ((17 : Nat) - point) := by
    calc (10 : ℚ) ^ 16 = 10 ^ (point - 1) * 10 ^ ((17 : Nat) - point) := by
          rw [← zpow_add₀ (by norm_num), show point - 1 + ((17 : Nat) - point) = ((16 : Nat) : Int) by
            push_cast
            ring, zpow_natCast]
      _ ≤ _ := mul_le_mul_of_nonneg_right hdigits (le_of_lt hpos)
  have hpart : 1 / 2 < Ratio.val ⟨m * 2 ^ e, units⟩ * 10 ^ ((17 : Nat) - point) / 2 ^ 54 :=
    lt_of_lt_of_le (by norm_num) (div_le_div_of_nonneg_right hlarge (by positivity))
  apply hits_of_lt
  · dsimp only
    exact units_pos
  · exact den_bounds_pos.1
  · exact den_bounds_pos.2
  · rw [Ratio.val_shift, Ratio.val_shift]
    have := mul_le_mul_of_nonneg_right hlow (le_of_lt hpos)
    rw [add_mul, div_mul_eq_mul_div] at this
    exact lt_of_lt_of_le (add_lt_add_right hpart _) this
  · rw [Ratio.val_shift, Ratio.val_shift]
    have := mul_le_mul_of_nonneg_right hhigh (le_of_lt hpos)
    rw [add_mul, div_mul_eq_mul_div] at this
    exact lt_of_lt_of_le (add_lt_add_right hpart _) this

/-- The digits that are found lie between the bounds. -/
theorem shortest_within {s : Bool} {m e : Nat} (hm : m ≠ 0) (hc : Canonical (finite s m e)) :
    Within m e (shortest m e).val := by
  have hhits : Hits (m % 2 == 0) ⟨m * 2 ^ e, units⟩ (bounds m e).1 (bounds m e).2
      ((17 : Nat) - magnitude ⟨m * 2 ^ e, units⟩) := hits_seventeen hm hc.1 hc.2.2
  have hshortest : shortest m e = (search (m % 2 == 0) ⟨m * 2 ^ e, units⟩ (bounds m e).1 (bounds m e).2
      (magnitude ⟨m * 2 ^ e, units⟩) 17 1).trimmed 20 := by
    rw [shortest, if_neg hm]
    rfl
  rw [hshortest, Decimal.val_trimmed]
  obtain ⟨k, hexp, hbetween⟩ := exists_of_search ⟨17, show 1 ≤ 17 by decide, show 17 < 1 + 17 by decide, hhits⟩
  rw [between_iff (Ratio.den_shift_pos den_bounds_pos.1 k) (Ratio.den_shift_pos den_bounds_pos.2 k),
    Ratio.val_shift, Ratio.val_shift] at hbetween
  obtain ⟨⟨hlow, hhigh⟩, hopen⟩ := hbetween
  have hpos : (0 : ℚ) < 10 ^ k := by positivity
  rw [Decimal.val, hexp, zpow_neg, ← div_eq_mul_inv, Within, le_div_iff₀ hpos, div_le_iff₀ hpos,
    lt_div_iff₀ hpos, div_lt_iff₀ hpos]
  exact ⟨⟨hlow, hhigh⟩, fun hodd => hopen (by rw [hodd]; rfl)⟩

/-- Digits with the value of those that are found are rounded to the number again. -/
theorem ofDecimal_of_val {s : Bool} {m e digits : Nat} {exponent : Int} (hc : Canonical (finite s m e))
    (hval : Decimal.val ⟨digits, exponent⟩ = (shortest m e).val) :
    ofDecimal s digits exponent = finite s m e := by
  by_cases hm : m = 0
  · subst hm
    obtain rfl : e = 0 := hc.2.1.resolve_right (by decide)
    have hzero : (digits : ℚ) * 10 ^ exponent = 0 := hval.trans (zero_mul _)
    obtain rfl : digits = 0 := by
      exact_mod_cast (mul_eq_zero.mp hzero).resolve_right (zpow_ne_zero _ (by norm_num))
    rfl
  · refine ofDecimal_of_within hm hc ?_
    have hwithin := shortest_within hm hc
    rwa [← hval] at hwithin

end Binary64

end Worksheet
