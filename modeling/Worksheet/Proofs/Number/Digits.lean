import Mathlib.Data.List.Induction
import Mathlib.Data.Nat.Log
import Mathlib.Tactic.Ring
import Worksheet.Number.Digits

/-!
# Reading what was written in digits

`digitsValue` reads what `decimal` writes (`digitsValue_decimal`) and what
`fixedDecimal` writes (`digitsValue_fixedDecimal`), and the number that a run of
digits stands for is not written longer than the run
(`length_decimal_digitsValue`). All that is written are the digits `0` to `9`
(`isAsciiDigit_decimal`), the first of them no zero (`head?_decimal`). Zeros that are
filled in do not change what is read (`digitsValue_zeroFill_decimal`).
-/

namespace Worksheet

theorem digitValue?_lt {c : Char} {n : Nat} (h : digitValue? c = some n) : n < 10 := by
  obtain ⟨z, hz, rfl⟩ := Option.map_eq_some_iff.mp h
  have := List.find?_some hz
  simp only [Bool.and_eq_true, decide_eq_true_eq] at this
  omega

theorem digitValue?_digitChar : ∀ n < 10, digitValue? (digitChar n) = some n := by decide

theorem isDecimal_digitChar {n : Nat} (h : n < 10) : isDecimal (digitChar n) = true := by
  rw [isDecimal, digitValue?_digitChar n h]
  rfl

theorem digitsValue_concat (ds : Text) (d : Char) :
    digitsValue (ds ++ [d]) = digitsValue ds * 10 + (digitValue? d).getD 0 := by
  simp only [digitsValue, List.foldl_append, List.foldl_cons, List.foldl_nil]

theorem digitsValue_append (us vs : Text) :
    digitsValue (us ++ vs) = digitsValue us * 10 ^ vs.length + digitsValue vs := by
  induction vs using List.reverseRecOn with
  | nil => rw [List.append_nil, List.length_nil, Nat.pow_zero, Nat.mul_one]; rfl
  | append_singleton vs d ih =>
    rw [← List.append_assoc, digitsValue_concat, digitsValue_concat, ih, List.length_append,
      List.length_singleton, Nat.pow_succ]
    ring

theorem digitsValue_zeros (n : Nat) : digitsValue (List.replicate n '0') = 0 := by
  induction n with
  | zero => rfl
  | succ n ih => rw [List.replicate_succ', digitsValue_concat, ih]; rfl

/-- The number that a run of digits stands for has at most as many digits as the
run. -/
theorem digitsValue_lt (ds : Text) : digitsValue ds < Nat.pow 10 ds.length := by
  induction ds using List.reverseRecOn with
  | nil => exact Nat.one_pos
  | append_singleton ds d ih =>
    have hd : (digitValue? d).getD 0 < 10 := by
      cases h : digitValue? d with
      | none => decide
      | some n => exact digitValue?_lt h
    rw [digitsValue_concat, List.length_append, List.length_singleton]
    show _ < Nat.pow 10 ds.length * 10
    omega

theorem digitsValue_lt_of_length_le {ds : Text} {k : Nat} (h : ds.length ≤ k) :
    digitsValue ds < Nat.pow 10 k :=
  Nat.lt_of_lt_of_le (digitsValue_lt ds) (Nat.pow_le_pow_right (Nat.zero_lt_succ 9) h)

/-- What is written is read again. -/
theorem digitsValue_decimal (n : Nat) : digitsValue (decimal n) = n := by
  induction n using Nat.strongRecOn with
  | ind n ih =>
    rw [decimal]
    split
    · rename_i h
      rw [← List.nil_append [digitChar n], digitsValue_concat, digitValue?_digitChar n h]
      exact Nat.zero_add n
    · rename_i h
      rw [digitsValue_concat, ih (n / 10) (by omega), digitValue?_digitChar (n % 10) (by omega),
        Option.getD_some]
      omega

theorem isDecimal_decimal (n : Nat) : ∀ c ∈ decimal n, isDecimal c = true := by
  induction n using Nat.strongRecOn with
  | ind n ih =>
    rw [decimal]
    split
    · rename_i h
      simpa using isDecimal_digitChar h
    · rename_i h
      intro c hc
      rcases List.mem_append.mp hc with hc | hc
      · exact ih (n / 10) (by omega) c hc
      · obtain rfl := List.mem_singleton.mp hc
        exact isDecimal_digitChar (by omega)

theorem decimal_ne_nil (n : Nat) : decimal n ≠ [] := by
  rw [decimal]
  split <;> simp

theorem signedDecimal_natCast (n : Nat) : signedDecimal n = decimal n := by
  rw [signedDecimal, if_neg (by omega), Int.natAbs_natCast]

theorem isAsciiDigit_digitChar : ∀ n < 10, isAsciiDigit (digitChar n) = true := by decide

theorem isAsciiDigit_decimal (n : Nat) : ∀ c ∈ decimal n, isAsciiDigit c = true := by
  induction n using Nat.strongRecOn with
  | ind n ih =>
    rw [decimal]
    split
    · rename_i h
      simpa using isAsciiDigit_digitChar n h
    · rename_i h
      intro c hc
      rcases List.mem_append.mp hc with hc | hc
      · exact ih (n / 10) (by omega) c hc
      · obtain rfl := List.mem_singleton.mp hc
        exact isAsciiDigit_digitChar _ (by omega)

theorem isAsciiDigit_zeros {n : Nat} : ∀ c ∈ List.replicate n '0', isAsciiDigit c = true := by
  intro c hc
  rw [List.eq_of_mem_replicate hc]
  rfl

/-- A run of digits ends where something else follows. -/
theorem span_digits {ds rest : Text} (hds : ∀ c ∈ ds, isAsciiDigit c = true)
    (hrest : ∀ c ∈ rest.head?, isAsciiDigit c = false) :
    (ds ++ rest).takeWhile isAsciiDigit = ds ∧ (ds ++ rest).dropWhile isAsciiDigit = rest := by
  rw [List.takeWhile_append_of_pos hds, List.dropWhile_append_of_pos hds]
  cases rest with
  | nil => exact ⟨List.append_nil ds, rfl⟩
  | cons c rest =>
    have hc : ¬ isAsciiDigit c = true := by simp [hrest c rfl]
    rw [List.takeWhile_cons_of_neg hc, List.dropWhile_cons_of_neg hc]
    exact ⟨List.append_nil ds, rfl⟩

/-- A number is not written with a zero in front. -/
theorem head?_decimal {n : Nat} (h : n ≠ 0) : (decimal n).head? ≠ some '0' := by
  induction n using Nat.strongRecOn with
  | ind n ih =>
    rw [decimal]
    split
    · rename_i hn
      have : ∀ n < 10, n ≠ 0 → digitChar n ≠ '0' := by decide
      simpa using this n hn h
    · rename_i hn
      rw [List.head?_append, List.head?_eq_some_head (decimal_ne_nil _), Option.some_or,
        ← List.head?_eq_some_head (decimal_ne_nil _)]
      exact ih (n / 10) (by omega) (by omega)

/-- A number that is written with a zero in front has no other digit. -/
theorem length_of_head?_decimal (n : Nat) (h : (decimal n).head? = some '0') : (decimal n).length = 1 := by
  by_cases hn : n = 0
  · subst hn
    rw [decimal, if_pos (by decide), List.length_singleton]
  · exact absurd h (head?_decimal hn)

/-- A number has as many digits as the highest power of ten in it says. -/
theorem length_decimal (n : Nat) : (decimal n).length = Nat.log 10 n + 1 := by
  induction n using Nat.strongRecOn with
  | ind n ih =>
    rw [decimal]
    split
    · rename_i h
      rw [List.length_singleton, Nat.log_of_lt h]
    · rename_i h
      rw [List.length_append, List.length_singleton, ih (n / 10) (by omega),
        Nat.log_of_one_lt_of_le (by decide) (Nat.not_lt.mp h)]

theorem length_decimal_le {n k : Nat} (hk : 0 < k) (h : n < Nat.pow 10 k) : (decimal n).length ≤ k := by
  rw [length_decimal]
  rcases Nat.eq_zero_or_pos n with rfl | hn
  · rwa [Nat.log_zero_right]
  · exact Nat.log_lt_of_lt_pow hn.ne' h

/-- A number that was read from digits is not written longer than they are. -/
theorem length_decimal_digitsValue {ds : Text} (h : ds ≠ []) :
    (decimal (digitsValue ds)).length ≤ ds.length :=
  length_decimal_le (List.length_pos_iff.mpr h) (digitsValue_lt ds)

/-! ## A least number of digits -/

/-- Nothing but zeros is put in. -/
theorem mem_zeroFill {width : Nat} {t : Text} {c : Char} (h : c ∈ zeroFill width t) :
    c = '0' ∨ c ∈ t := by
  rw [zeroFill.eq_def] at h
  split at h
  · rcases List.mem_cons.mp h with rfl | h
    · exact .inr List.mem_cons_self
    · exact (List.mem_append.mp h).imp List.eq_of_mem_replicate (List.mem_cons_of_mem _)
  · exact (List.mem_append.mp h).imp_left List.eq_of_mem_replicate

/-- A number is widened by zeros in front of its digits. -/
theorem zeroFill_decimal (width n : Nat) :
    zeroFill width (decimal n) = List.replicate (width - (decimal n).length) '0' ++ decimal n := by
  rw [zeroFill]
  intro ds hds
  have hsign := isAsciiDigit_decimal n '-' (hds ▸ List.mem_cons_self)
  exact absurd hsign (by decide)

theorem length_zeroFill_decimal (width n : Nat) :
    (zeroFill width (decimal n)).length = max width (decimal n).length := by
  rw [zeroFill_decimal, List.length_append, List.length_replicate]
  omega

/-- Zeros in front do not change the number that is read. -/
theorem digitsValue_zeroFill_decimal (width n : Nat) : digitsValue (zeroFill width (decimal n)) = n := by
  rw [zeroFill_decimal, digitsValue_append, digitsValue_zeros, Nat.zero_mul, Nat.zero_add,
    digitsValue_decimal]

/-! ## A given number of digits -/

theorem length_fixedDecimal (width n : Nat) : (fixedDecimal width n).length = width := by
  induction width generalizing n with
  | zero => rfl
  | succ width ih => rw [fixedDecimal, List.length_append, ih, List.length_singleton]

theorem isAsciiDigit_fixedDecimal (width n : Nat) :
    ∀ c ∈ fixedDecimal width n, isAsciiDigit c = true := by
  induction width generalizing n with
  | zero => exact nofun
  | succ width ih =>
    intro c hc
    rcases List.mem_append.mp hc with hc | hc
    · exact ih (n / 10) c hc
    · obtain rfl := List.mem_singleton.mp hc
      exact isAsciiDigit_digitChar _ (Nat.mod_lt n (by decide))

/-- The last digits of a number are read again. -/
theorem digitsValue_fixedDecimal (width n : Nat) : digitsValue (fixedDecimal width n) = n % 10 ^ width := by
  induction width generalizing n with
  | zero => rw [Nat.pow_zero, Nat.mod_one]; rfl
  | succ width ih =>
    rw [fixedDecimal, digitsValue_concat, ih, digitValue?_digitChar _ (Nat.mod_lt n (by decide)),
      Option.getD_some, Nat.pow_succ', Nat.mod_mul]
    ring

/-- The digits in front and the last digits of a number. -/
theorem fixedDecimal_add (front width n : Nat) :
    fixedDecimal (front + width) n = fixedDecimal front (n / 10 ^ width) ++ fixedDecimal width n := by
  induction width generalizing n with
  | zero => rw [Nat.pow_zero, Nat.div_one, fixedDecimal, List.append_nil, Nat.add_zero]
  | succ width ih =>
    rw [← Nat.add_assoc, fixedDecimal, ih, fixedDecimal, List.append_assoc, Nat.div_div_eq_div_mul, Nat.pow_succ']

end Worksheet
