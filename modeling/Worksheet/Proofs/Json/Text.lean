import Worksheet.Json.Reader
import Worksheet.Json.Writer

/-!
# Texts in JSON are read as they were written

`Json.exists_of_quoted` reads a text up to the quote that ends it, in every style: each
character is read again from what was written for it (`Json.readText_escaped`), be it the
character, an escape of one letter, or one or two escapes of four hexadecimal digits
(`Json.unicodeEscape?_unit`, `Json.unicodeEscape?_pair`).
-/

namespace Worksheet.Json

variable {rest : Text}

theorem hexValue?_hexChar : ∀ n < 16, hexValue? (hexChar n) = some n := by decide

theorem hexFour?_hexDigits {n : Nat} (h : n < 0x10000) : hexFour? (hexDigits 4 n ++ rest) = some (n, rest) := by
  have hdigit (k : Nat) : hexValue? (hexChar (k % 16)) = some (k % 16) :=
    hexValue?_hexChar _ (Nat.mod_lt k (by decide))
  simp only [hexDigits, List.nil_append, List.cons_append, hexFour?, hdigit, Option.bind_eq_bind,
    Option.bind_some, Option.pure_def]
  congr 2
  omega

/-- A character below the first 65536 is read from one escape: there are no characters among
the numbers that are left for pairs. -/
theorem unicodeEscape?_unit {c : Char} (h : c.toNat < 0x10000) :
    unicodeEscape? (hexDigits 4 c.toNat ++ rest) = some (c, rest) := by
  have hvalid : c.toNat < 0xD800 ∨ 0xDFFF < c.toNat ∧ c.toNat < 0x110000 := c.valid
  have hsingle : (decide (c.toNat < 0xD800) || decide (0xDFFF < c.toNat)) = true := by
    simp only [Bool.or_eq_true, decide_eq_true_eq]
    omega
  simp only [unicodeEscape?, hexFour?_hexDigits h, Option.bind_eq_bind, Option.bind_some, hsingle, if_true,
    Char.ofNat_toNat, Option.pure_def]

/-- A character beyond the first 65536 is read from two escapes. -/
theorem unicodeEscape?_pair {c : Char} (h : 0x10000 ≤ c.toNat) :
    unicodeEscape? (hexDigits 4 (0xD800 + (c.toNat - 0x10000) / 0x400) ++
      (JsonStyle.unicodeEscape (0xDC00 + (c.toNat - 0x10000) % 0x400) ++ rest)) = some (c, rest) := by
  have hvalid : c.toNat < 0xD800 ∨ 0xDFFF < c.toNat ∧ c.toNat < 0x110000 := c.valid
  obtain ⟨n, hn⟩ : ∃ n, c.toNat = 0x10000 + n := ⟨c.toNat - 0x10000, by omega⟩
  have hhigh : ¬ (decide (0xD800 + n / 0x400 < 0xD800) || decide (0xDFFF < 0xD800 + n / 0x400)) = true := by
    simp only [Bool.or_eq_true, decide_eq_true_eq]
    omega
  have hlow : ¬ (decide (0xDC00 + n % 0x400 < 0xDC00) || decide (0xDFFF < 0xDC00 + n % 0x400)) = true := by
    simp only [Bool.or_eq_true, decide_eq_true_eq]
    omega
  have hsame : 0x10000 + (0xD800 + n / 0x400 - 0xD800) * 0x400 + (0xDC00 + n % 0x400 - 0xDC00) = c.toNat := by
    omega
  rw [hn, Nat.add_sub_cancel_left]
  simp only [unicodeEscape?, JsonStyle.unicodeEscape, List.cons_append,
    hexFour?_hexDigits (show 0xD800 + n / 0x400 < 0x10000 by omega),
    hexFour?_hexDigits (show 0xDC00 + n % 0x400 < 0x10000 by omega), Option.bind_eq_bind, Option.bind_some,
    hhigh, hlow, Bool.false_eq_true, if_false, show ¬ 0xDBFF < 0xD800 + n / 0x400 by omega, hsame,
    Char.ofNat_toNat, Option.pure_def]

/-! ## One step of reading a text -/

theorem readText_unicode {t : Text} {c : Char} (fuel : Nat) (h : unicodeEscape? t = some (c, rest)) :
    readText (fuel + 1) ('\\' :: 'u' :: t) = (readText fuel rest).map fun r => (c :: r.1, r.2) := by
  rw [readText, h, Option.bind_eq_bind, Option.bind_some]
  dsimp only
  cases readText fuel rest <;> rfl

theorem readText_short {e c : Char} (fuel : Nat) (h : shortEscape? e = some c) :
    readText (fuel + 1) ('\\' :: e :: rest) = (readText fuel rest).map fun r => (c :: r.1, r.2) := by
  rw [readText, h, Option.bind_eq_bind, Option.bind_some]
  · cases readText fuel rest <;> rfl
  · rintro rfl
    exact absurd h nofun

theorem readText_plain {c : Char} (fuel : Nat) (hquote : c ≠ '"') (hslash : c ≠ '\\')
    (hcontrol : 0x20 ≤ c.toNat) :
    readText (fuel + 1) (c :: rest) = (readText fuel rest).map fun r => (c :: r.1, r.2) := by
  have hkept : ¬ (decide (c.toNat < 0x20) || decide (c = '\\')) = true := by
    simp only [Bool.or_eq_true, decide_eq_true_eq, hslash, or_false]
    omega
  rw [readText, if_neg hkept]
  · cases readText fuel rest <;> rfl
  · exact hquote
  · exact fun _ h _ => hslash h
  · exact fun _ _ h _ => hslash h

/-- A character is read again from what was written for it. -/
theorem readText_escaped (s : JsonStyle) (c : Char) (fuel : Nat) (rest : Text) :
    readText (fuel + 1) (s.escaped c ++ rest) = (readText fuel rest).map fun r => (c :: r.1, r.2) := by
  fun_cases JsonStyle.escaped s c with
  | case1 | case2 | case3 | case4 | case5 | case6 | case7 => exact readText_short fuel rfl
  | case8 _ hcontrol =>
    rw [if_pos hcontrol]
    exact readText_unicode fuel (unicodeEscape?_unit (Nat.lt_trans hcontrol (by decide)))
  | case9 _ hcontrol hplain hquote hslash =>
    rw [if_neg hcontrol, if_pos hplain]
    exact readText_plain fuel hquote hslash (Nat.not_lt.mp hcontrol)
  | case10 _ hcontrol hplain hunit =>
    rw [if_neg hcontrol, if_neg hplain, if_pos hunit]
    exact readText_unicode fuel (unicodeEscape?_unit hunit)
  | case11 _ hcontrol hplain hunit =>
    rw [if_neg hcontrol, if_neg hplain, if_neg hunit]
    exact readText_unicode fuel (unicodeEscape?_pair (Nat.not_lt.mp hunit))

/-- Something is written for each character, for otherwise none would be read. -/
theorem escaped_ne_nil (s : JsonStyle) (c : Char) : s.escaped c ≠ [] := by
  intro h
  have hread := readText_escaped s c 0 ['"']
  rw [h] at hread
  exact absurd hread nofun

theorem length_le_flatMap_escaped (s : JsonStyle) (t : Text) : t.length ≤ (t.flatMap s.escaped).length := by
  induction t with
  | nil => exact Nat.le_refl 0
  | cons c t ih =>
    have hc := List.length_pos_iff.mpr (escaped_ne_nil s c)
    rw [List.flatMap_cons, List.length_append, List.length_cons]
    omega

/-- A text is read up to the quote that ends it. -/
theorem readText_flatMap_escaped (s : JsonStyle) (t : Text) {fuel : Nat} (h : t.length < fuel) :
    readText fuel (t.flatMap s.escaped ++ '"' :: rest) = some (t, rest) := by
  induction t generalizing fuel with
  | nil =>
    obtain ⟨fuel, rfl⟩ := Nat.exists_eq_succ_of_ne_zero (Nat.ne_of_gt h)
    rfl
  | cons c t ih =>
    obtain ⟨fuel, rfl⟩ := Nat.exists_eq_succ_of_ne_zero (Nat.ne_of_gt (Nat.zero_lt_of_lt h))
    rw [List.flatMap_cons, List.append_assoc, readText_escaped, ih (Nat.lt_of_succ_lt_succ h)]
    rfl

/-- Behind its first quote a text is read with the fuel that there is for it. -/
theorem exists_of_quoted (s : JsonStyle) (t rest : Text) :
    ∃ u, s.quoted t ++ rest = '"' :: u ∧ readText (u.length + 1) u = some (t, rest) := by
  refine ⟨t.flatMap s.escaped ++ '"' :: rest, by simp [JsonStyle.quoted], readText_flatMap_escaped s t ?_⟩
  have := length_le_flatMap_escaped s t
  rw [List.length_append]
  omega

end Worksheet.Json
