import Worksheet.Proofs.Pattern.Single
import Worksheet.Text.Blank
import Worksheet.Text.Digit

/-!
# Classes of characters

A small letter in any case is one of a few characters (`letterForms`), so that
what holds of all of them can be checked one by one. Decimal digits are no white
space (`isBlank_of_isDecimal`).
-/

namespace Worksheet

/-! ## Letters in any case -/

/-- The characters that count as a given one when case is ignored. -/
def letterForms (x : Char) : List Char :=
  x :: ((if 'a' ≤ x ∧ x ≤ 'z' then [Char.ofNat (x.toNat - 32)] else []) ++
    (if x = 'i' then ['İ', 'ı'] else []) ++ (if x = 's' then ['ſ'] else []) ++
    (if x = 'k' then ['\u212A'] else []))

theorem mem_letterForms {x c : Char} (h : isLetter x c = true) : c ∈ letterForms x := by
  simp only [isLetter, Bool.or_eq_true, Bool.and_eq_true, decide_eq_true_eq, beq_iff_eq] at h
  rcases h with (((rfl | ⟨hx, hc⟩) | ⟨rfl, hc⟩) | ⟨rfl, rfl⟩) | ⟨rfl, rfl⟩
  · exact List.mem_cons_self
  · obtain rfl : c = Char.ofNat (x.toNat - 32) := by
      rw [← hc, Nat.add_sub_cancel, Char.ofNat_toNat]
    simp [letterForms, hx]
  · rcases hc with rfl | rfl <;> decide
  · decide
  · decide

/-- What holds of all forms of a character holds of each of them. -/
theorem of_all_forms {x c : Char} {p : Char → Bool} (h : isLetter x c = true)
    (hx : (letterForms x).all p = true) : p c = true :=
  List.all_eq_true.mp hx c (mem_letterForms h)

theorem eq_false_of_all_forms {x c : Char} {p : Char → Bool} (h : isLetter x c = true)
    (hx : ((letterForms x).all fun c => !p c) = true) : p c = false :=
  Bool.not_eq_true' _ ▸ of_all_forms h hx

/-- What holds of all forms of all characters of a text holds of every character
of what spells it. -/
theorem Text.Spells.forall {p : Char → Bool} {u x : Text} (h : u.Spells x)
    (hx : (x.all fun a => (letterForms a).all p) = true) : ∀ c ∈ u, p c = true := by
  induction h with
  | nil => simp
  | cons hac _ ih =>
    obtain ⟨ha, hx⟩ := Bool.and_eq_true_iff.mp hx
    exact List.forall_mem_cons.mpr ⟨of_all_forms hac ha, ih hx⟩

/-- A text without letters is spelt in one way. -/
theorem Text.Spells.eq {u x : Text} (h : u.Spells x)
    (hx : (x.all fun a => (letterForms a).all (· == a)) = true) : u = x := by
  induction h with
  | nil => rfl
  | @cons a c x u hac _ ih =>
    obtain ⟨ha, hx⟩ := Bool.and_eq_true_iff.mp hx
    have hc : (c == a) = true := of_all_forms (p := (· == a)) hac ha
    rw [ih hx, beq_iff_eq.mp hc]

theorem eq_of_isLetter_angle {c : Char} (h : isLetter '<' c = true) : c = '<' :=
  beq_iff_eq.mp (of_all_forms (x := '<') (p := (· == '<')) h (by decide))

theorem Text.Spells.front {a : Char} {x u : Text} (h : u.Spells (a :: x)) :
    ∃ c, ∃ v : Text, u = c :: v ∧ isLetter a c = true ∧ v.Spells x := by
  obtain ⟨c, v, hc, hv, rfl⟩ := List.forall₂_cons_left_iff.mp h
  exact ⟨c, v, rfl, hc, hv⟩

/-- Where a text is spelt, each of its characters is found in some case. -/
theorem Text.Spells.exists_form {u x z : Text} (h : u.Spells x) (hz : u <+: z) {j : Nat} {a : Char}
    (ha : x[j]? = some a) : ∃ c, z[j]? = some c ∧ isLetter a c = true := by
  obtain ⟨v, rfl⟩ := hz
  induction h generalizing j with
  | nil => exact nomatch ha
  | @cons b c x u hbc _ ih =>
    cases j with
    | zero =>
      obtain rfl := Option.some.inj ha
      exact ⟨c, rfl, hbc⟩
    | succ j => exact ih ha

theorem Text.Spells.exists_append {u x y : Text} (h : u.Spells (x ++ y)) :
    ∃ v w, u = v ++ w ∧ v.Spells x ∧ w.Spells y := by
  have htake := List.forall₂_take x.length h
  have hdrop := List.forall₂_drop x.length h
  rw [List.take_left] at htake
  rw [List.drop_left] at hdrop
  exact ⟨_, _, (List.take_append_drop _ u).symm, htake, hdrop⟩

/-- Where a text is spelt, characters of some classes can only stand if each class has one
of the forms of the character there. -/
theorem Text.Spells.meets {x m w z : Text} {qs : List (Char → Bool)} (h : m.Spells x)
    (hw : List.Forall₂ (fun q c => q c = true) qs w) (hpre : w <+: m ++ z) :
    ((qs.zip x).all fun a => (letterForms a.2).any a.1) = true := by
  induction h generalizing qs w with
  | nil => simp
  | @cons a c x m hac _ ih =>
    cases hw with
    | nil => rfl
    | cons hq hw =>
      rw [List.cons_append, List.cons_prefix_cons] at hpre
      obtain ⟨rfl, hpre⟩ := hpre
      rw [List.zip_cons_cons, List.all_cons, Bool.and_eq_true]
      exact ⟨List.any_eq_true.mpr ⟨_, mem_letterForms hac, hq⟩, ih hw hpre⟩

theorem Text.Spells.classes {x w : Text} (h : w.Spells x) :
    List.Forall₂ (fun q c => q c = true) (x.map isLetter) w :=
  List.forall₂_map_left_iff.mpr h

instance (u x : Text) : Decidable (u.Spells x) :=
  inferInstanceAs (Decidable (List.Forall₂ (fun a c => isLetter a c = true) x u))

/-! ## Ranges -/

theorem exists_range_of_inRanges {rs : List CodeRange} {c : Char} (h : inRanges rs c = true) :
    ∃ r ∈ rs, r.1 ≤ c.toNat ∧ c.toNat ≤ r.2 := by
  induction rs with
  | nil => simp [inRanges] at h
  | cons r rs ih =>
    simp only [inRanges, Bool.and_eq_true, Bool.or_eq_true, decide_eq_true_eq] at h
    obtain ⟨h₁, h₂ | h₂⟩ := h
    · exact ⟨r, List.mem_cons_self, h₁, h₂⟩
    · obtain ⟨s, hs, h⟩ := ih h₂
      exact ⟨s, List.mem_cons_of_mem _ hs, h⟩

theorem exists_zero_of_isDecimal {c : Char} (h : isDecimal c = true) :
    ∃ z ∈ digitZeros, z ≤ c.toNat ∧ c.toNat < z + 10 := by
  obtain ⟨n, hn⟩ := Option.isSome_iff_exists.mp h
  obtain ⟨z, hz, -⟩ := Option.map_eq_some_iff.mp hn
  have := List.find?_some hz
  simp only [Bool.and_eq_true, decide_eq_true_eq] at this
  exact ⟨z, List.mem_of_find?_eq_some hz, this⟩

/-- The runs of ten digits lie apart from the ranges of white space. -/
theorem digitZeros_blankRanges : ∀ z ∈ digitZeros, ∀ r ∈ blankRanges, z + 10 ≤ r.1 ∨ r.2 < z := by
  decide

theorem isBlank_of_isDecimal {c : Char} (h : isDecimal c = true) : isBlank c = false := by
  cases hb : isBlank c with
  | false => rfl
  | true =>
    obtain ⟨z, hz, h₁, h₂⟩ := exists_zero_of_isDecimal h
    obtain ⟨r, hr, h₃, h₄⟩ := exists_range_of_inRanges hb
    rcases digitZeros_blankRanges z hz r hr with h₅ | h₅ <;> omega

end Worksheet
