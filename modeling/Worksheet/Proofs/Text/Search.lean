import Mathlib.Data.List.Infix
import Worksheet.Text

/-!
# Looking for a text in another

`Text.offsetOf?` gives the first place where a text occurs (`offsetOf?_eq_some`),
and none if it does not occur at all (`offsetOf?_eq_none_iff`). Where a text occurs,
it is the part between two offsets (`slice_of_prefix_drop`), and such parts make up the
text again (`slice_append_drop`); a window around a span is a part of the text
(`window_eq`).
-/

namespace Worksheet.Text

theorem offsetOf?_eq_some {u t : Text} {n : Nat} (h : offsetOf? u t = some n) :
    u <+: t.drop n ∧ ∀ m < n, ¬ u <+: t.drop m := by
  induction t generalizing n with
  | nil =>
    rw [offsetOf?] at h
    split at h
    · rename_i hu
      obtain rfl := Option.some.inj h
      exact ⟨by simp [hu], nofun⟩
    · exact nomatch h
  | cons c cs ih =>
    rw [offsetOf?] at h
    split at h
    · rename_i hu
      obtain rfl := Option.some.inj h
      rw [List.isPrefixOf_iff_prefix] at hu
      exact ⟨hu, nofun⟩
    · rename_i hu
      obtain ⟨k, hk, rfl⟩ := Option.map_eq_some_iff.mp h
      obtain ⟨hpre, hfirst⟩ := ih hk
      refine ⟨hpre, fun m hm => ?_⟩
      cases m with
      | zero => rwa [List.isPrefixOf_iff_prefix] at hu
      | succ m => exact hfirst m (Nat.lt_of_succ_lt_succ hm)

theorem offsetOf?_eq_none_iff {u t : Text} : offsetOf? u t = none ↔ ¬ u <:+: t := by
  induction t with
  | nil => simp [offsetOf?]
  | cons c cs ih =>
    rw [offsetOf?, List.infix_cons_iff, not_or, ← ih, ← List.isPrefixOf_iff_prefix]
    split
    · rename_i hu
      simp [hu]
    · rename_i hu
      simp [hu]

theorem includes_iff {t u : Text} : t.includes u = true ↔ u <:+: t := by
  rw [includes, Option.isSome_iff_ne_none, ne_eq, offsetOf?_eq_none_iff, not_not]

/-- Where a text is replaced, what is around it stays. -/
theorem replaceFirst_append {x old new y : Text} (h : offsetOf? old (x ++ (old ++ y)) = some x.length) :
    replaceFirst (x ++ (old ++ y)) old new = x ++ (new ++ y) := by
  rw [replaceFirst, h]
  simp only
  rw [List.take_left, ← List.append_assoc x old, ← List.length_append, List.drop_left, List.append_assoc]

/-! ## Places -/

/-- A text that occurs at an offset is the part of the text from there on. -/
theorem slice_of_prefix_drop {t u : Text} {n : Nat} (h : u <+: t.drop n) :
    t.slice n (n + u.length) = u := by
  rw [slice, List.drop_take, Nat.add_sub_cancel_left]
  exact (List.prefix_iff_eq_take.mp h).symm

theorem length_slice {t : Text} {n m : Nat} (h : m ≤ t.length) : (t.slice n m).length = m - n := by
  rw [slice, List.length_drop, List.length_take, Nat.min_eq_left h]

/-- A text from an offset on is the part up to a later offset, and the text from there on. -/
theorem slice_append_drop (t : Text) {n m : Nat} (h : n ≤ m) : t.slice n m ++ t.drop m = t.drop n := by
  have hdrop : t.drop m = (t.drop n).drop (m - n) := by rw [List.drop_drop, Nat.add_sub_cancel' h]
  rw [slice, List.drop_take, hdrop, List.take_append_drop]

theorem le_length_of_prefix_drop {t u : Text} {n : Nat} (h : u <+: t.drop n) (hu : u ≠ []) :
    n + u.length ≤ t.length := by
  have hlen := h.length_le
  have hpos := List.length_pos_iff.mpr hu
  rw [List.length_drop] at hlen
  omega

/-- A span that is widened ends within the text. -/
theorem padded_eq (t : Text) (n len padding : Nat) :
    t.padded n (n + len) padding =
      (((n - padding : Nat) : Int), ((min t.length (n + len + padding) : Nat) : Int)) := by
  have hlo : max 0 ((n : Int) - padding) = ((n - padding : Nat) : Int) := by omega
  have hhi : min (t.length : Int) (n + len + padding) =
      ((min t.length (n + len + padding) : Nat) : Int) := by
    omega
  rw [padded, hlo, hhi]

/-- The window around a span, as a part of the text. -/
theorem window_eq (t : Text) (n len radius : Nat) :
    t.window n (n + len) radius =
      (((n - radius : Nat) : Int), (t.take (min t.length (n + len + radius))).drop (n - radius)) := by
  rw [window, padded_eq]
  simp only [cut, slice, resolve]
  rw [if_neg (by omega), if_neg (by omega), Int.toNat_natCast, Int.toNat_natCast]

end Worksheet.Text
