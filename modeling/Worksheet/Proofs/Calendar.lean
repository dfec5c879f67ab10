import Worksheet.Calendar.Reader
import Worksheet.Proofs.Number.Digits
import Worksheet.Report.Json

/-!
# Times are read as they were written

`Moment.ofText?_iso_iff`: a time is read again from its text exactly if its distance from
universal time, where it is known, is a whole number of minutes. The parts of the text are
read one after another, each before the rest of the text: two digits
(`twoDigits?_fixedDecimal`), the day (`Date.read?_iso`), the fraction of a second
(`Moment.readSeconds?_clock`) and the distance (`Moment.readOffset?_offsetText`).
-/

namespace Worksheet

variable {rest : Text}

theorem twoDigits?_fixedDecimal {limit n : Nat} (h : n % 100 ≤ limit) :
    twoDigits? limit (fixedDecimal 2 n ++ rest) = some (n % 100, rest) := by
  have hvalue := digitsValue_fixedDecimal 2 n
  have hdigits := isAsciiDigit_fixedDecimal 2 n
  simp only [fixedDecimal, List.nil_append, List.cons_append] at hvalue hdigits ⊢
  have hboth := hdigits _ (List.mem_cons_self ..)
  have hlast := hdigits _ (List.mem_cons_of_mem _ (List.mem_cons_self ..))
  rw [twoDigits?, hvalue, hboth, hlast, if_pos (by simpa using h)]
  rfl

theorem twoDigits?_fixedDecimal_of_lt {limit n : Nat} (h : n ≤ limit) (hlimit : limit < 100) :
    twoDigits? limit (fixedDecimal 2 n ++ rest) = some (n, rest) := by
  have hn : n % 100 = n := Nat.mod_eq_of_lt (Nat.lt_of_le_of_lt h hlimit)
  rw [twoDigits?_fixedDecimal (by rw [hn]; exact h), hn]

theorem afterChar?_cons (c : Char) : afterChar? c (c :: rest) = some rest := if_pos rfl

theorem daysInMonth_le (y m : Nat) : daysInMonth y m ≤ 31 := by
  rw [daysInMonth]
  split_ifs <;> decide

/-- A day is read again. -/
theorem Date.read?_iso {d : Date} (h : d.valid = true) : read? (d.iso ++ rest) = some (d, rest) := by
  have hparts := h
  simp only [valid, Bool.and_eq_true, decide_eq_true_eq] at hparts
  have hday := daysInMonth_le d.year d.month
  have hcentury : d.year / 100 % 100 = d.year / 100 := Nat.mod_eq_of_lt (by omega)
  rw [iso, fixedDecimal_add 2 2 d.year]
  simp only [List.append_assoc]
  rw [read?, twoDigits?_fixedDecimal (by omega)]
  simp only [Option.bind_eq_bind, Option.bind_some]
  rw [twoDigits?_fixedDecimal (by omega)]
  simp only [Option.bind_some, List.cons_append, List.nil_append, afterChar?_cons]
  rw [twoDigits?_fixedDecimal_of_lt (by omega) (by decide)]
  simp only [Option.bind_some, afterChar?_cons]
  rw [twoDigits?_fixedDecimal_of_lt (by omega) (by decide)]
  simp only [Option.bind_some]
  rw [show d.year / 10 ^ 2 % 100 = d.year / 100 from hcentury, Nat.div_add_mod']
  exact if_pos h

namespace Moment

theorem readOffset?_of_parts {negative : Bool} {hours minutes : Nat} {t r tail : Text}
    (hhours : twoDigits? 23 t = some (hours, ':' :: r)) (hminutes : twoDigits? 59 r = some (minutes, tail)) :
    readOffset? ((if negative then '-' else '+') :: t) =
      if tail ≠ [] then none
      else some (some (if negative then -(hours * 3600 + minutes * 60 : Int) else hours * 3600 + minutes * 60)) := by
  cases negative
  · simp [readOffset?, hhours, hminutes, afterChar?_cons]
  · simp [readOffset?, hhours, hminutes, afterChar?_cons]

/-- The distance from universal time is read if it is a whole number of minutes. -/
theorem readOffset?_offsetText {n : Int} (h : n.natAbs < 86400) :
    readOffset? (offsetText n) = if n % 60 = 0 then some (some n) else none := by
  rw [offsetText]
  simp only [List.append_assoc, List.cons_append, List.nil_append]
  have hhours : n.natAbs / 3600 ≤ 23 := by omega
  have hminute : n.natAbs / 60 % 60 ≤ 59 := by omega
  have hsign : (if n < 0 then '-' else '+') = if decide (n < 0) = true then '-' else '+' := by simp
  rw [hsign, readOffset?_of_parts (twoDigits?_fixedDecimal_of_lt hhours (by decide))
    (twoDigits?_fixedDecimal_of_lt hminute (by decide))]
  simp only [decide_eq_true_eq]
  by_cases hminutes : n % 60 = 0
  · have hvalue : (if n < 0 then -(((n.natAbs / 3600 : Nat) : Int) * 3600 + ((n.natAbs / 60 % 60 : Nat) : Int) * 60)
        else ((n.natAbs / 3600 : Nat) : Int) * 3600 + ((n.natAbs / 60 % 60 : Nat) : Int) * 60) = n := by
      split <;> omega
    rw [if_pos (show n.natAbs % 60 = 0 by omega), if_neg (by simp), if_pos hminutes, hvalue]
  · rw [if_neg (show ¬ n.natAbs % 60 = 0 by omega), if_pos (by simp), if_neg hminutes]

/-- The text for the distance from universal time, if it is known. -/
def zone : Option Int → Text
  | none => []
  | some 0 => ['Z']
  | some n => offsetText n

theorem readOffset?_zone {offset : Option Int} (h : ∀ n ∈ offset, n.natAbs < 86400) :
    readOffset? (zone offset) = if ∀ n ∈ offset, n % 60 = 0 then some offset else none := by
  fun_cases zone offset with
  | case1 => simp [readOffset?]
  | case2 => simp [readOffset?]
  | case3 n hn =>
    rw [readOffset?_offsetText (h n rfl)]
    simp

/-- The text for a distance does not go on with the fraction of a second. -/
theorem head?_zone {offset : Option Int} : ∀ c ∈ (zone offset).head?, c = 'Z' ∨ c = '-' ∨ c = '+' := by
  fun_cases zone offset with
  | case1 => exact nofun
  | case2 =>
    rintro _ ⟨⟩
    exact .inl rfl
  | case3 n hn =>
    rintro _ ⟨⟩
    split
    · exact .inr (.inl rfl)
    · exact .inr (.inr rfl)

/-- The fraction of a second is read again, and that there is none. -/
theorem readFraction?_clock {n : Nat} (h : n < 1000000)
    (hrest : ∀ c ∈ rest.head?, c = 'Z' ∨ c = '-' ∨ c = '+') :
    readFraction? ((if n = 0 then [] else '.' :: fixedDecimal 6 n) ++ rest) = some (n, rest) := by
  split
  · rename_i hn
    subst hn
    rw [List.nil_append]
    cases rest with
    | nil => rfl
    | cons c rest =>
      rcases hrest c rfl with rfl | rfl | rfl <;> rfl
  · have hend : ∀ c ∈ rest.head?, isAsciiDigit c = false := fun c hc => by
      rcases hrest c hc with rfl | rfl | rfl <;> rfl
    obtain ⟨htake, hdrop⟩ := span_digits (isAsciiDigit_fixedDecimal 6 n) hend
    have hvalue : fractionValue (fixedDecimal 6 n) = n := by
      rw [fractionValue, List.take_left' (length_fixedDecimal 6 n), digitsValue_fixedDecimal]
      exact Nat.mod_eq_of_lt h
    rw [List.cons_append, readFraction?, htake, hdrop]
    split
    · rename_i hnil
      have := length_fixedDecimal 6 n
      rw [hnil] at this
      exact absurd this nofun
    · rw [hvalue]

/-- Everything but the distance from universal time is read again. -/
theorem ofText?_written {m : Moment} (h : m.valid = true) :
    ofText? m.iso = (readOffset? (zone m.offset)).map fun offset => { m with offset } := by
  simp only [valid, Bool.and_eq_true, decide_eq_true_eq] at h
  obtain ⟨⟨⟨⟨hdate, hhour⟩, hminute⟩, hsecond⟩, hmicrosecond⟩ := h
  have htext : m.iso = m.date.iso ++ 'T' :: (fixedDecimal 2 m.hour ++ ':' :: (fixedDecimal 2 m.minute ++
      ':' :: (fixedDecimal 2 m.second ++ ((if m.microsecond = 0 then [] else '.' :: fixedDecimal 6 m.microsecond) ++
        zone m.offset)))) := by
    rw [iso, written, clock]
    simp only [List.append_assoc, List.cons_append, List.nil_append]
    rfl
  rw [htext, ofText?, Date.read?_iso hdate]
  simp only [Option.bind_eq_bind, Option.bind_some]
  rw [if_neg (by decide), twoDigits?_fixedDecimal_of_lt (by omega) (by decide)]
  simp only [Option.bind_some, afterChar?_cons]
  rw [twoDigits?_fixedDecimal_of_lt (by omega) (by decide)]
  simp only [Option.bind_some, readSeconds?]
  rw [twoDigits?_fixedDecimal_of_lt (by omega) (by decide)]
  simp only [Option.bind_eq_bind, Option.bind_some]
  rw [readFraction?_clock hmicrosecond head?_zone]
  simp only [Option.bind_some, Option.pure_def]
  cases readOffset? (zone m.offset) <;> rfl

/-- A time is read again exactly if its distance from universal time is a whole number of
minutes, or not known. -/
theorem ofText?_iso_iff {m : Moment} (hvalid : m.valid = true) (hoffset : ∀ n ∈ m.offset, n.natAbs < 86400) :
    ofText? m.iso = some m ↔ ∀ n ∈ m.offset, n % 60 = 0 := by
  rw [ofText?_written hvalid, readOffset?_zone hoffset]
  split
  · rename_i h
    exact iff_of_true rfl h
  · rename_i h
    exact iff_of_false nofun h

/-- A time that has a text: there is such a time, and its distance from universal time, where
it is known, is a whole number of minutes below a day. -/
structure Storable (m : Moment) : Prop where
  valid : m.valid = true
  offset : ∀ n ∈ m.offset, n.natAbs < 86400 ∧ n % 60 = 0

theorem Storable.ofText?_iso {m : Moment} (h : m.Storable) : ofText? m.iso = some m :=
  (ofText?_iso_iff h.valid fun n hn => (h.offset n hn).1).mpr fun n hn => (h.offset n hn).2

end Moment

end Worksheet
