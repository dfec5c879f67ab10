import Worksheet.Json.Reader
import Worksheet.Proofs.Number.Digits
import Worksheet.Proofs.Number.Shortest

/-!
# Numbers in JSON are read as they were written

* `Json.readScalar?_signedDecimal` reads an integer again;
* `Json.readScalar?_write` reads a finite floating-point number again, whatever the
  format that it was written in: the text has the digits of the number
  (`Json.readNumber?_positional`, `Json.readNumber?_scientific`), and digits of this
  value are rounded to the number (`Binary64.ofDecimal_of_val`).
-/

namespace Worksheet

namespace Json

variable {t rest ds whole : Text} {negative : Bool}

/-- What may follow a number: it does not go on with the number. -/
def Ends (rest : Text) : Prop :=
  ∀ c ∈ rest.head?, isAsciiDigit c = false ∧ c ≠ '.' ∧ c ≠ 'e' ∧ c ≠ 'E'

theorem ends_cons {c : Char} (h : isAsciiDigit c = false ∧ c ≠ '.' ∧ c ≠ 'e' ∧ c ≠ 'E') :
    Ends (c :: rest) := by
  intro d hd
  obtain rfl := Option.some.inj hd
  exact h

/-! ## The parts of a number -/

theorem readDigitRun?_append (hne : ds ≠ []) (hds : ∀ c ∈ ds, isAsciiDigit c = true)
    (hrest : ∀ c ∈ rest.head?, isAsciiDigit c = false) : readDigitRun? (ds ++ rest) = some (ds, rest) := by
  obtain ⟨htake, hdrop⟩ := span_digits hds hrest
  rw [readDigitRun?, htake, hdrop]
  split
  · contradiction
  · rfl

theorem readFraction?_point (hne : ds ≠ []) (hds : ∀ c ∈ ds, isAsciiDigit c = true)
    (hrest : ∀ c ∈ rest.head?, isAsciiDigit c = false) :
    readFraction? ('.' :: (ds ++ rest)) = some (some ds, rest) := by
  simp only [readFraction?, readDigitRun?_append hne hds hrest, Option.map_some]

theorem readFraction?_none (hrest : ∀ c ∈ rest.head?, c ≠ '.') :
    readFraction? rest = some (none, rest) := by
  cases rest with
  | nil => rfl
  | cons c rest =>
    rw [readFraction?]
    rintro _ ⟨⟩
    exact hrest '.' rfl rfl

theorem readExponent?_none (hrest : Ends rest) : readExponent? rest = some (none, rest) := by
  cases rest with
  | nil => rfl
  | cons c rest =>
    have hc := hrest c rfl
    simp [readExponent?, hc.2.2]

/-- An exponent is read again, whatever its sign and the zeros in front of it. -/
theorem readExponent?_exponentText (f : FloatFormat) (n : Int)
    (hrest : ∀ c ∈ rest.head?, isAsciiDigit c = false) :
    readExponent? (f.exponentText n ++ rest) = some (some n, rest) := by
  rw [FloatFormat.exponentText]
  -- The digits of the exponent, with the zeros in front of them.
  obtain ⟨ds, hds⟩ : ∃ ds : Text,
      ds = List.replicate (f.exponentWidth - (decimal n.natAbs).length) '0' ++ decimal n.natAbs := ⟨_, rfl⟩
  have hne : ds ≠ [] := by simp [hds, decimal_ne_nil]
  have hdigits : ∀ c ∈ ds, isAsciiDigit c = true := fun c hc => by
    rw [hds] at hc
    rcases List.mem_append.mp hc with hc | hc
    · exact isAsciiDigit_zeros c hc
    · exact isAsciiDigit_decimal _ c hc
  have hvalue : digitsValue ds = n.natAbs := by
    rw [hds, digitsValue_append, digitsValue_zeros, digitsValue_decimal, Nat.zero_mul, Nat.zero_add]
  have hrun := readDigitRun?_append hne hdigits hrest
  simp only [List.append_assoc, ← hds, List.cons_append]
  split_ifs with hneg hplus
  · simp only [List.cons_append, List.nil_append, readExponent?, hrun, Option.map_some, hvalue]
    simp only [decide_true, Bool.true_or, if_true]
    congr 3
    omega
  · simp only [List.cons_append, List.nil_append, readExponent?, hrun, Option.map_some, hvalue]
    simp only [decide_true, Bool.true_or, if_true, Bool.false_eq_true, if_false]
    congr 3
    omega
  · have hnosign {c : Char} (hc : isAsciiDigit c = false) : ∀ u, ds ++ rest ≠ c :: u := fun u hu => by
      obtain ⟨d, ds', rfl⟩ := List.exists_cons_of_ne_nil hne
      obtain ⟨rfl, -⟩ := List.cons.inj hu
      rw [hdigits d (List.mem_cons_self ..)] at hc
      exact absurd hc (by decide)
    rw [List.nil_append, readExponent?, if_pos (by decide), hrun, Option.map_some]
    · simp only [hvalue, Bool.false_eq_true, if_false]
      congr 3
      omega
    · exact hnosign rfl
    · exact hnosign rfl

/-! ## Whole numbers -/

/-- What a number is read as: an integer, unless there is a point or an exponent. -/
def numberOf (negative : Bool) (whole : Text) : Option Text → Option Int → Json
  | none, none => .int (if negative then -(digitsValue whole : Int) else digitsValue whole)
  | fraction, exponent =>
    .real (Binary64.ofDecimal negative (digitsValue (whole ++ fraction.getD []))
      (exponent.getD 0 - (fraction.getD []).length))

theorem readNumber?_of_parts {r₁ r₂ : Text} {fraction : Option Text} {exponent : Option Int}
    (hrun : readDigitRun? t = some (whole, r₁)) (hzero : whole.head? = some '0' → whole.length = 1)
    (hlength : whole.length ≤ wholeDigits) (hfraction : readFraction? r₁ = some (fraction, r₂))
    (hexponent : readExponent? r₂ = some (exponent, rest)) :
    readNumber? negative t = some (numberOf negative whole fraction exponent, rest) := by
  have hlead : ¬ (whole.head? = some '0' && whole.length ≠ 1) = true := by
    simpa using hzero
  simp only [readNumber?, hrun, hfraction, hexponent, Option.bind_eq_bind, Option.bind_some, hlead,
    Nat.not_lt.mpr hlength, if_false]
  cases fraction <;> cases exponent <;> rfl

theorem readNumber?_decimal {n : Nat} (hn : n < Nat.pow 10 wholeDigits) (hrest : Ends rest) :
    readNumber? negative (decimal n ++ rest) = some (.int (if negative then -(n : Int) else n), rest) := by
  have hrun := readDigitRun?_append (decimal_ne_nil n) (isAsciiDigit_decimal n) fun c hc => (hrest c hc).1
  rw [readNumber?_of_parts hrun (length_of_head?_decimal n) (length_decimal_le (by decide) hn)
    (readFraction?_none fun c hc => (hrest c hc).2.1) (readExponent?_none hrest), numberOf, digitsValue_decimal]

/-! ## Digits with a point or an exponent -/

theorem readNumber?_point {fraction : Text} (hwhole : whole ≠ []) (hdigits : ∀ c ∈ whole, isAsciiDigit c = true)
    (hzero : whole.head? = some '0' → whole.length = 1) (hlength : whole.length ≤ wholeDigits)
    (hfraction : fraction ≠ []) (hplaces : ∀ c ∈ fraction, isAsciiDigit c = true) (hrest : Ends rest) :
    readNumber? negative (whole ++ '.' :: (fraction ++ rest)) =
      some (.real (Binary64.ofDecimal negative (digitsValue (whole ++ fraction)) (-fraction.length)), rest) := by
  have hpoint : ∀ c ∈ ('.' :: (fraction ++ rest)).head?, isAsciiDigit c = false := by
    rintro _ ⟨⟩
    rfl
  rw [readNumber?_of_parts (readDigitRun?_append hwhole hdigits hpoint) hzero hlength
    (readFraction?_point hfraction hplaces fun c hc => (hrest c hc).1) (readExponent?_none hrest), numberOf]
  · simp only [Option.getD_some, Option.getD_none, zero_sub]
  · exact nofun

/-- The two sides of the point in a text of digits: on both there are digits, and together
they have the value. -/
theorem exists_of_positional {before : Int} (hne : ds ≠ []) (hds : ∀ c ∈ ds, isAsciiDigit c = true)
    (hlead : ds.head? = some '0' → ds.length = 1 ∧ before = 1) (hbefore : before ≤ wholeDigits) :
    ∃ whole fraction : Text, FloatFormat.positional ds before = whole ++ '.' :: fraction ∧
      (whole ≠ [] ∧ (∀ c ∈ whole, isAsciiDigit c = true) ∧
        (whole.head? = some '0' → whole.length = 1) ∧ whole.length ≤ wholeDigits) ∧
      (fraction ≠ [] ∧ ∀ c ∈ fraction, isAsciiDigit c = true) ∧
      Decimal.val ⟨digitsValue (whole ++ fraction), -fraction.length⟩ =
        Decimal.val ⟨digitsValue ds, before - ds.length⟩ := by
  have hzero : ∀ c ∈ ['0'], isAsciiDigit c = true := by
    intro c hc
    rw [List.mem_singleton.mp hc]
    rfl
  rw [FloatFormat.positional]
  split
  · rename_i hsmall
    -- All digits stand behind the point, after zeros.
    refine ⟨['0'], List.replicate before.natAbs '0' ++ ds, rfl, ⟨by decide, hzero, fun _ => rfl, by decide⟩,
      ⟨by simp [hne], fun c hc => (List.mem_append.mp hc).elim (isAsciiDigit_zeros c) (hds c)⟩, ?_⟩
    rw [← List.append_assoc, digitsValue_append, ← List.replicate_one, List.replicate_append_replicate,
      digitsValue_zeros, Nat.zero_mul, Nat.zero_add, List.length_append, List.length_replicate]
    congr 2
    omega
  · rename_i hlarge
    simp only
    split
    · rename_i hlength
      -- All digits stand before the point, with zeros behind them.
      refine ⟨ds ++ List.replicate (before.toNat - ds.length) '0', ['0'], by simp [lit],
        ⟨by simp [hne], fun c hc => (List.mem_append.mp hc).elim (hds c) (isAsciiDigit_zeros c), ?_, ?_⟩,
        ⟨by decide, hzero⟩, ?_⟩
      · rw [List.head?_append, List.head?_eq_some_head hne, Option.some_or, ← List.head?_eq_some_head hne]
        intro h
        obtain ⟨hone, rfl⟩ := hlead h
        simp [hone]
      · rw [List.length_append, List.length_replicate]
        omega
      · rw [List.append_assoc, ← List.replicate_one, List.replicate_append_replicate, digitsValue_append,
          digitsValue_zeros, Nat.add_zero, List.length_replicate, Decimal.val_mul_pow]
        congr 2
        rw [List.length_replicate]
        omega
    · rename_i hlength
      -- The point stands between the digits.
      have hsplit := List.take_append_drop before.toNat ds
      refine ⟨ds.take before.toNat, ds.drop before.toNat, by simp,
        ⟨?_, fun c hc => hds c (List.mem_of_mem_take hc), ?_, ?_⟩,
        ⟨?_, fun c hc => hds c (List.mem_of_mem_drop hc)⟩, ?_⟩
      · rw [Ne, List.take_eq_nil_iff, not_or]
        exact ⟨by omega, hne⟩
      · rw [List.head?_take, if_neg (by omega)]
        intro h
        have := (hlead h).1
        omega
      · rw [List.length_take]
        omega
      · rw [Ne, List.drop_eq_nil_iff]
        exact hlength
      · rw [hsplit, List.length_drop]
        congr 2
        omega

/-- Digits with an exponent are read with their value. -/
theorem readNumber?_scientific (f : FloatFormat) {before : Int} (hne : ds ≠ [])
    (hds : ∀ c ∈ ds, isAsciiDigit c = true) (hrest : Ends rest) :
    readNumber? negative (f.scientific ds before ++ rest) =
      some (.real (Binary64.ofDecimal negative (digitsValue ds) (before - ds.length)), rest) := by
  obtain ⟨d, ds, rfl⟩ := List.exists_cons_of_ne_nil hne
  have hd : ∀ c ∈ [d], isAsciiDigit c = true := by
    intro c hc
    rw [List.mem_singleton.mp hc]
    exact hds d (List.mem_cons_self ..)
  have hexponent := readExponent?_exponentText f (before - 1) fun c hc => (hrest c hc).1
  have hmark : ∀ c ∈ (f.exponentText (before - 1) ++ rest).head?, isAsciiDigit c = false ∧ c ≠ '.' := by
    rintro _ ⟨⟩
    exact ⟨rfl, by decide⟩
  cases ds with
  | nil =>
    have hrun := readDigitRun?_append (List.cons_ne_nil d []) hd fun c hc => (hmark c hc).1
    have hfraction := readFraction?_none fun c hc => (hmark c hc).2
    rw [FloatFormat.scientific, List.append_assoc]
    rw [readNumber?_of_parts hrun (fun _ => rfl) (Nat.le_of_ble_eq_true rfl) hfraction hexponent, numberOf]
    · simp
    · exact nofun
  | cons d' ds =>
    have hplaces : ∀ c ∈ d' :: ds, isAsciiDigit c = true := fun c hc => hds c (List.mem_cons_of_mem d hc)
    have hfraction := readFraction?_point (List.cons_ne_nil d' ds) hplaces fun c hc => (hmark c hc).1
    have hrun : readDigitRun? (d :: '.' :: (d' :: ds ++ (f.exponentText (before - 1) ++ rest))) =
        some ([d], '.' :: (d' :: ds ++ (f.exponentText (before - 1) ++ rest))) := by
      refine readDigitRun?_append (List.cons_ne_nil d []) hd ?_
      rintro _ ⟨⟩
      rfl
    rw [FloatFormat.scientific, List.append_assoc, List.cons_append, List.cons_append]
    rw [readNumber?_of_parts hrun (fun _ => rfl) (Nat.le_of_ble_eq_true rfl) hfraction hexponent, numberOf]
    · simp only [Option.getD_some, List.cons_append, List.nil_append, List.length_cons]
      congr 4
      push_cast
      ring
    · exact nofun
    · exact nofun

/-! ## Numbers after their sign -/

/-- A number begins with a digit. -/
theorem exists_digit_of_readNumber? {r : Json × Text} (h : readNumber? negative t = some r) :
    ∃ c u, t = c :: u ∧ isAsciiDigit c = true := by
  have hrun : readDigitRun? t ≠ none := fun hnone => by
    rw [readNumber?, hnone] at h
    exact absurd h nofun
  cases t with
  | nil => exact absurd rfl hrun
  | cons c u =>
    refine ⟨c, u, rfl, by_contra fun hc => hrun ?_⟩
    rw [readDigitRun?, List.takeWhile_cons_of_neg hc]

theorem readScalar?_of_readNumber? {r : Json × Text} (h : readNumber? false t = some r) :
    readScalar? t = some r := by
  obtain ⟨c, u, rfl, hc⟩ := exists_digit_of_readNumber? h
  have hne {d : Char} (hd : isAsciiDigit d = false) (v : Text) : c :: u ≠ d :: v := by
    rintro ⟨⟩
    rw [hd] at hc
    exact absurd hc (by decide)
  rw [readScalar?]
  · exact h
  all_goals first | exact hne rfl | exact fun _ => hne rfl _

theorem readScalar?_minus_of_readNumber? {r : Json × Text} (h : readNumber? true t = some r) :
    readScalar? ('-' :: t) = some r := by
  obtain ⟨c, u, rfl, hc⟩ := exists_digit_of_readNumber? h
  rw [readScalar?]
  · exact h
  · rintro _ ⟨⟩
    exact absurd hc (by decide)

/-- An integer is read again. -/
theorem readScalar?_signedDecimal {i : Int} (hi : i.natAbs < Nat.pow 10 wholeDigits) (hrest : Ends rest) :
    readScalar? (signedDecimal i ++ rest) = some (.int i, rest) := by
  rw [signedDecimal]
  split
  · rename_i hneg
    rw [List.cons_append, readScalar?_minus_of_readNumber? (readNumber?_decimal hi hrest), if_pos rfl]
    congr 3
    omega
  · rename_i hneg
    rw [readScalar?_of_readNumber? (readNumber?_decimal hi hrest), if_neg (by decide)]
    congr 3
    omega

/-! ## Floating-point numbers -/

/-- The digits of a number: a zero stands in front of them only if it is the only digit
before the point. -/
theorem head?_digits {s : Bool} {m e : Nat} (hc : Binary64.Canonical (.finite s m e))
    (h : (decimal (Binary64.shortest m e).digits).head? = some '0') : m = 0 := by
  by_contra hm
  refine head?_decimal (fun hzero => ?_) h
  have hpos := (Binary64.shortest_within hm hc).pos hm
  rw [Decimal.val, hzero] at hpos
  simp at hpos

/-- The place of the point among the digits of a number. -/
theorem before_eq (m e : Nat) :
    (if m = 0 then (1 : Int)
      else (decimal (Binary64.shortest m e).digits).length + (Binary64.shortest m e).exponent) =
      (decimal (Binary64.shortest m e).digits).length + (Binary64.shortest m e).exponent := by
  split
  · rename_i hm
    have hzero : (decimal 0).length = 1 := by rw [decimal, if_pos (by decide), List.length_singleton]
    rw [hm, Binary64.shortest, if_pos rfl, hzero]
    rfl
  · rfl

/-- A floating-point number is read again, with the sign that stood before it. -/
theorem readNumber?_write (f : FloatFormat) (hf : f.mostBefore ≤ wholeDigits) {m e : Nat}
    (hc : Binary64.Canonical (.finite negative m e)) (hrest : Ends rest) :
    readNumber? negative (f.write (.finite false m e) ++ rest) = some (.real (.finite negative m e), rest) := by
  obtain ⟨before, hbefore⟩ : ∃ before : Int, before = if m = 0 then 1
      else (decimal (Binary64.shortest m e).digits).length + (Binary64.shortest m e).exponent := ⟨_, rfl⟩
  have hne := decimal_ne_nil (Binary64.shortest m e).digits
  have hdigits := isAsciiDigit_decimal (Binary64.shortest m e).digits
  have hval : Decimal.val ⟨digitsValue (decimal (Binary64.shortest m e).digits),
      before - (decimal (Binary64.shortest m e).digits).length⟩ = (Binary64.shortest m e).val := by
    rw [digitsValue_decimal, hbefore, before_eq, add_sub_cancel_left]
  rw [FloatFormat.write]
  simp only [Bool.false_eq_true, if_false, ← hbefore]
  split
  · rename_i hpositional
    have hlead (h : (decimal (Binary64.shortest m e).digits).head? = some '0') :
        (decimal (Binary64.shortest m e).digits).length = 1 ∧ before = 1 :=
      ⟨length_of_head?_decimal _ h, by rw [hbefore, if_pos (head?_digits hc h)]⟩
    obtain ⟨whole, fraction, htext, ⟨hwhole, hall, hzero, hlength⟩, ⟨hfraction, hplaces⟩, hsame⟩ :=
      exists_of_positional hne hdigits hlead (hpositional.2.trans hf)
    rw [htext, List.append_assoc, List.cons_append,
      readNumber?_point hwhole hall hzero hlength hfraction hplaces hrest,
      Binary64.ofDecimal_of_val hc (hsame.trans hval)]
  · rw [readNumber?_scientific f hne hdigits hrest, Binary64.ofDecimal_of_val hc hval]

/-- A finite number is read again. -/
theorem readScalar?_write (f : FloatFormat) (hf : f.mostBefore ≤ wholeDigits) {s : Bool} {m e : Nat}
    (hc : Binary64.Canonical (.finite s m e)) (hrest : Ends rest) :
    readScalar? (f.write (.finite s m e) ++ rest) = some (.real (.finite s m e), rest) := by
  have hread := readNumber?_write f hf hc hrest
  cases s with
  | false => rw [readScalar?_of_readNumber? hread]
  | true =>
    have hsign : f.write (.finite true m e) = '-' :: f.write (.finite false m e) := rfl
    rw [hsign, List.cons_append, readScalar?_minus_of_readNumber? hread]

end Json

end Worksheet
