import Worksheet.Alphabet
import Mathlib.Data.List.Basic

/-!
# Texts of characters in an alphabet

Whatever is done with texts, it makes no difference whether they are taken for texts in an
alphabet before or afterwards (`Text.offsetOf?_embed`, `Text.replaceFirst_embed`,
`Text.splitOn_embed`). A text that is made of characters (`Text.IsText`) can be written, and
no other one (`Alphabet.isText_iff`).
-/

namespace Worksheet

namespace Alphabet

variable {α : Type} [Alphabet α]

@[simp] theorem narrow_embed (t : Text) : narrow (embed t : Text α) = .ok t :=
  narrow_eq_ok_iff.mpr rfl

theorem embed_injective : Function.Injective (embed : Text → Text α) := by
  intro s t h
  have hs := narrow_embed (α := α) s
  rw [h, narrow_embed] at hs
  exact (Except.ok.inj hs).symm

@[simp] theorem embed_inj {s t : Text} : (embed s : Text α) = embed t ↔ s = t :=
  embed_injective.eq_iff

theorem ofChar_injective : Function.Injective (ofChar : Char → α) := by
  intro c d h
  have hembed : (embed [c] : Text α) = embed [d] := by
    rw [embed_eq_map, embed_eq_map, List.map_singleton, List.map_singleton, h]
  exact List.singleton_inj.mp (embed_injective hembed)

@[simp] theorem ofChar_inj {c d : Char} : (ofChar c : α) = ofChar d ↔ c = d :=
  ofChar_injective.eq_iff

@[simp] theorem embed_nil : (embed [] : Text α) = [] := embed_eq_map []

@[simp] theorem embed_cons (c : Char) (t : Text) : (embed (c :: t) : Text α) = ofChar c :: embed t := by
  rw [embed_eq_map, embed_eq_map, List.map_cons]

@[simp] theorem embed_append (s t : Text) :
    (embed (s ++ t) : Text α) = (embed s : Text α) ++ (embed t : Text α) := by
  simp only [embed_eq_map, List.map_append]

@[simp] theorem length_embed (t : Text) : (embed t : Text α).length = t.length := by
  rw [embed_eq_map, List.length_map]

theorem embed_take (n : Nat) (t : Text) : (embed (t.take n) : Text α) = (embed t).take n := by
  simp only [embed_eq_map, List.map_take]

theorem embed_drop (n : Nat) (t : Text) : (embed (t.drop n) : Text α) = (embed t).drop n := by
  simp only [embed_eq_map, List.map_drop]

@[simp] theorem embed_eq_nil_iff {t : Text} : (embed t : Text α) = [] ↔ t = [] := by
  rw [← embed_nil, embed_inj]

@[simp] theorem isEmpty_embed (t : Text) : (embed t : Text α).isEmpty = t.isEmpty := by
  cases t with
  | nil => rw [embed_nil, List.isEmpty_nil, List.isEmpty_nil]
  | cons c t => rw [embed_cons, List.isEmpty_cons, List.isEmpty_cons]

@[simp] theorem reverse_embed (t : Text) : (embed t : Text α).reverse = embed t.reverse := by
  simp only [embed_eq_map, List.map_reverse]

end Alphabet

open Alphabet

namespace Text

variable {α : Type} [Alphabet α]

/-! ## Taking texts apart -/

theorem splitOn_embed {p : α → Bool} {q : Char → Bool} (h : ∀ c, p (ofChar c) = q c) (t : Text) :
    splitOn p (embed t) = (splitOn q t).map embed := by
  induction t with
  | nil => simp [splitOn]
  | cons c t ih =>
    rw [embed_cons, splitOn, splitOn, h, ih]
    split
    · simp
    · cases splitOn q t with
      | nil => simp
      | cons part parts => simp

theorem afterLast_embed {p : α → Bool} {q : Char → Bool} (h : ∀ c, p (ofChar c) = q c) (t : Text) :
    afterLast p (embed t) = embed (afterLast q t) := by
  rw [afterLast, splitOn_embed h, afterLast, List.getLastD_eq_getLast?, List.getLastD_eq_getLast?,
    List.getLast?_map, ← embed_nil, Option.getD_map]

theorem join_embed (separator : Text) (parts : List Text) :
    join (embed separator : Text α) (parts.map embed) = embed (join separator parts) := by
  induction parts with
  | nil => exact embed_nil.symm
  | cons a parts ih =>
    cases parts with
    | nil => simp [join]
    | cons b parts =>
      rw [List.map_cons] at ih ⊢
      rw [List.map_cons, join, List.intercalate_cons_cons, ← join, ih, join, join,
        List.intercalate_cons_cons, embed_append, embed_append]

/-! ## Looking for texts -/

variable [DecidableEq α]

@[simp] theorem isPrefixOf_embed (s t : Text) : (embed s : Text α).isPrefixOf (embed t) = s.isPrefixOf t := by
  induction s generalizing t with
  | nil => simp
  | cons c s ih =>
    cases t with
    | nil => simp
    | cons d t => simp [List.isPrefixOf, ih, beq_eq_decide]

@[simp] theorem offsetOf?_embed (u t : Text) : offsetOf? (embed u : Text α) (embed t) = offsetOf? u t := by
  induction t with
  | nil => simp [offsetOf?]
  | cons c t ih => rw [embed_cons, offsetOf?, offsetOf?, ih, ← embed_cons, isPrefixOf_embed]

@[simp] theorem includes_embed (t u : Text) : includes (embed t : Text α) (embed u) = includes t u := by
  rw [includes, includes, offsetOf?_embed]

theorem replaceFirst_embed (t old new : Text) :
    replaceFirst (embed t : Text α) (embed old) (embed new) = embed (replaceFirst t old new) := by
  rw [replaceFirst, replaceFirst, offsetOf?_embed]
  split
  · rfl
  · rw [embed_append, embed_append, embed_take, embed_drop, length_embed]

end Text

/-! ## Texts that can be written -/

/-- A text is made of characters alone. -/
def Text.IsText {α : Type} [Alphabet α] (t : Text α) : Prop := ∃ u, t = embed u

namespace Alphabet

variable {α : Type} [Alphabet α] {s t : Text α}

theorem isText_char (t : Text) : t.IsText := ⟨t, rfl⟩

/-- A text can be written if and only if it is made of characters. -/
theorem isText_iff : t.IsText ↔ ∃ u, narrow t = .ok u :=
  exists_congr fun _ => narrow_eq_ok_iff.symm

theorem exists_of_not_isText (h : ¬ t.IsText) : ∃ f, narrow t = .error f := by
  cases hn : narrow t with
  | ok u => exact absurd (isText_iff.mpr ⟨u, hn⟩) h
  | error f => exact ⟨f, rfl⟩

/-- The front of a text that can be written can be written. -/
theorem isText_of_append (h : (s ++ t).IsText) : s.IsText := by
  obtain ⟨u, hu⟩ := h
  refine ⟨u.take s.length, ?_⟩
  rw [embed_take, ← hu, List.take_left]

end Alphabet

end Worksheet
