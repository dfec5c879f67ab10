import Worksheet.Alphabet.CodePoint
import Worksheet.Proofs.Text.Utf8

/-!
# What files are known by

A system knows files by the bytes of their names. Where all names are texts, it can know
them by these texts as well, as no two of them have the same bytes.
-/

namespace Worksheet

/-- By what a system knows the parts of names. Parts with the same bytes are the same
for it. -/
class Naming (α : Type) (κ : outParam Type) [Alphabet α] where
  key : Text α → κ
  key_eq_iff {s t : Text α} : key s = key t ↔ Alphabet.bytes s = Alphabet.bytes t

/-- Texts are known by themselves. -/
instance : Naming Char Text where
  key t := t
  key_eq_iff := ⟨congrArg Utf8.encode, Utf8.encode_injective⟩

/-- All other names are known by their bytes. -/
instance : Naming CodePoint (List UInt8) where
  key := Alphabet.bytes
  key_eq_iff := Iff.rfl

end Worksheet
