import Worksheet.Alphabet

/-!
# Code points

The alphabet of all names of files: the characters, and the codes between 0xD800 and
0xDFFF, which no character has. Each of 128 among these stands for a byte that is no
part of a character, so that every string of bytes is the name of a file; with any other
one a name stands for no bytes.

* `CodePoint.lower` writes a text of code points in small letters;
* `CodePoint.unwritable?` finds the code points that cannot be written.
-/

namespace Worksheet

/-- A character, or one of the codes that no character has, counted from 0xD800. They
are halves of pairs that stand for one character. -/
inductive CodePoint where
  | char (c : Char)
  | half (n : Fin 0x800)
deriving DecidableEq, Repr

namespace CodePoint

/-- The code of a code point. -/
def code : CodePoint → Nat
  | char c => c.toNat
  | half n => 0xD800 + n

/-- Whether a code point is no character. -/
def isHalf : CodePoint → Bool
  | char _ => false
  | half _ => true

/-- The character that a code point is. -/
def char? : CodePoint → Option Char
  | char c => some c
  | half _ => none

/-- The byte that a half stands for in the name of a file. -/
def escaped? (n : Fin 0x800) : Option UInt8 :=
  if 0x480 ≤ n.val ∧ n.val < 0x500 then some (UInt8.ofNat (n - 0x400)) else none

/-- The bytes that a code point stands for in the name of a file. -/
def bytes : CodePoint → List UInt8
  | char c => Utf8.encodeChar c
  | half n => (escaped? n).toList

/-- The first half of a text that is not allowed, at an offset or behind, together with
the halves that follow it at once. -/
def unwritable? (allowed : Fin 0x800 → Bool) : Nat → Text CodePoint → Option Utf8.Unwritable
  | _, [] => none
  | offset, char _ :: t => unwritable? allowed (offset + 1) t
  | offset, half n :: t =>
    if allowed n then unwritable? allowed (offset + 1) t
    else some ⟨(half n).code, offset, offset + 1 + (t.takeWhile isHalf).length⟩

/-- The text in small letters, given the characters before it. A half ends a word. -/
def lowerAfter (before : Text) : Text CodePoint → Text CodePoint
  | [] => before.lower.map char
  | char c :: t => lowerAfter (before ++ [c]) t
  | half n :: t => before.lower.map char ++ half n :: lowerAfter [] t

/-- The text in small letters. -/
def lower (t : Text CodePoint) : Text CodePoint := lowerAfter [] t

theorem unwritable?_eq_none {allowed : Fin 0x800 → Bool} (offset : Nat) (t : Text) :
    unwritable? allowed offset (t.map char) = none := by
  induction t generalizing offset with
  | nil => rfl
  | cons c t ih => exact ih (offset + 1)

/-- A text in which every half is at fault is made of characters if none is found. -/
theorem eq_map_of_unwritable? {offset : Nat} {t : Text CodePoint}
    (h : unwritable? (fun _ => false) offset t = none) : t = (t.filterMap char?).map char := by
  induction t generalizing offset with
  | nil => rfl
  | cons p t ih =>
    cases p with
    | char c => exact congrArg (char c :: ·) (ih h)
    | half n => exact nomatch h

theorem filterMap_char?_map (t : Text) : (t.map char).filterMap char? = t := by
  rw [List.filterMap_map]
  exact List.filterMap_some

theorem lowerAfter_map (before t : Text) : lowerAfter before (t.map char) = (before ++ t).lower.map char := by
  induction t generalizing before with
  | nil => rw [List.append_nil]; rfl
  | cons c t ih =>
    rw [List.append_cons]
    exact ih (before ++ [c])

theorem flatMap_bytes_map (t : Text) : (t.map char).flatMap bytes = Utf8.encode t := by
  rw [List.flatMap_map]
  rfl

end CodePoint

open CodePoint in
/-- Names are written without halves, and files can have those whose halves stand for
bytes. -/
instance : Alphabet CodePoint where
  ofChar := char
  embed t := t.map char
  codes t := t.map code
  narrow t :=
    match unwritable? (fun _ => false) 0 t with
    | none => .ok (t.filterMap char?)
    | some f => .error f
  lower := lower
  flaw? := unwritable? (fun n => (escaped? n).isSome) 0
  bytes t := t.flatMap bytes
  embed_eq_map _ := rfl
  narrow_eq_ok_iff {t u} := by
    constructor
    · intro h
      split at h
      · rename_i hnone
        rw [← Except.ok.inj h]
        exact eq_map_of_unwritable? hnone
      · exact nomatch h
    · rintro rfl
      rw [unwritable?_eq_none, filterMap_char?_map]
  lower_embed t := lowerAfter_map [] t
  flaw?_embed t := unwritable?_eq_none 0 t
  bytes_embed t := flatMap_bytes_map t

end Worksheet
