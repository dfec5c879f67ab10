import Worksheet.Number.Digits

/-!
# Texts as bytes

The encoding of texts in which files are kept: one to four bytes for a
character.

* `Utf8.encode` gives the bytes of a text;
* `Utf8.Unwritable` tells what of a text that is not made of characters alone cannot
  be written;
* `Utf8.decode` reads bytes, or says at which of them it fails and why.
-/

namespace Worksheet.Utf8

/-! ## Writing -/

/-- A byte that continues a character, from six bits of it. -/
def tailByte (n : Nat) : UInt8 := UInt8.ofNat (0x80 + n % 64)

/-- The bytes of a character. -/
def encodeChar (c : Char) : List UInt8 :=
  let n := c.toNat
  if n < 0x80 then [UInt8.ofNat n]
  else if n < 0x800 then [UInt8.ofNat (0xC0 + n / 64), tailByte n]
  else if n < 0x10000 then [UInt8.ofNat (0xE0 + n / 4096), tailByte (n / 64), tailByte n]
  else
    [UInt8.ofNat (0xF0 + n / 262144), tailByte (n / 4096), tailByte (n / 64), tailByte n]

/-- The bytes of a text. -/
def encode (t : Text) : List UInt8 := t.flatMap encodeChar

/-- What cannot be written: the first code that no character has, its place, and the
place behind all such codes that follow it at once. -/
structure Unwritable where
  code : Nat
  start : Nat
  stop : Nat
deriving DecidableEq, Repr

/-- The place of the codes at fault, and what is wrong with them. -/
def Unwritable.message (f : Unwritable) : Text :=
  let place :=
    if f.stop = f.start + 1 then
      lit "character '\\u" ++ hexDigits 4 f.code ++ lit "' in position " ++ decimal f.start
    else lit "characters in position " ++ decimal f.start ++ ['-'] ++ decimal (f.stop - 1)
  lit "'utf-8' codec can't encode " ++ place ++ lit ": surrogates not allowed"

/-! ## Reading -/

/-- What is wrong with bytes that are no text. -/
inductive Flaw where
  /-- A byte that starts no character. -/
  | badStart
  /-- A character that is not continued. -/
  | badTail
  /-- A character that is cut off by the end of the bytes. -/
  | cutOff
deriving DecidableEq, Repr

/-- Where bytes are no text: the offset, the bytes at fault, and what is wrong
with them. -/
structure Failure where
  offset : Nat
  bytes : List UInt8
  flaw : Flaw
deriving DecidableEq, Repr

/-- The number of bytes that follow the first byte of a character, and the bits
of the character in this first byte. -/
def leadOf? (b : UInt8) : Option (Nat × Nat) :=
  let n := b.toNat
  if n < 0x80 then some (0, n)
  else if n < 0xC2 then none
  else if n < 0xE0 then some (1, n - 0xC0)
  else if n < 0xF0 then some (2, n - 0xE0)
  else if n < 0xF5 then some (3, n - 0xF0)
  else none

/-- The bytes that can be second in a character: those that give a character
which has no shorter form, is no surrogate and not too large. -/
def secondRange (b : UInt8) : UInt8 × UInt8 :=
  if b = 0xE0 then (0xA0, 0xBF)
  else if b = 0xED then (0x80, 0x9F)
  else if b = 0xF0 then (0x90, 0xBF)
  else if b = 0xF4 then (0x80, 0x8F)
  else (0x80, 0xBF)

/-- The number of a character from the bits that are known of it and the bytes
that follow, the next of which lies in a range; or else what is wrong, and the
number of bytes that were read before this was seen. -/
def readTail (range : UInt8 × UInt8) :
    (count read value : Nat) → List UInt8 → Except (Flaw × Nat) Nat
  | 0, _, value, _ => .ok value
  | _ + 1, read, _, [] => .error (.cutOff, read)
  | count + 1, read, value, b :: bs =>
    if range.1 ≤ b && b ≤ range.2 then
      readTail (0x80, 0xBF) count (read + 1) (value * 64 + (b.toNat - 0x80)) bs
    else .error (.badTail, read)

/-- The character that starts with a byte, and the number of bytes that follow in
it; or else what is wrong, and the number of bytes at fault. -/
def readChar (b : UInt8) (bs : List UInt8) : Except (Flaw × Nat) (Char × Nat) :=
  match leadOf? b with
  | none => .error (.badStart, 1)
  | some (count, bits) => do
    let n ← readTail (secondRange b) count 1 bits bs
    return (Char.ofNat n, count)

/-- The text of the bytes from an offset on, when the next `skip` of them belong
to a character that has been read. -/
def decodeFrom : (skip offset : Nat) → List UInt8 → Except Failure Text
  | _, _, [] => .ok []
  | skip + 1, offset, _ :: bs => decodeFrom skip (offset + 1) bs
  | 0, offset, b :: bs =>
    match readChar b bs with
    | .error (flaw, count) => .error ⟨offset, (b :: bs).take count, flaw⟩
    | .ok (c, count) => do return c :: (← decodeFrom count (offset + 1) bs)

/-- The text of bytes. -/
def decode (bs : List UInt8) : Except Failure Text := decodeFrom 0 0 bs

namespace Failure

/-- Whether bytes that fail might still have become a text, had there been more
of them. The first two bytes of a surrogate count as such. -/
def awaitsMore (bs : List UInt8) (f : Failure) : Bool :=
  match f.flaw with
  | .cutOff => true
  | .badStart => false
  | .badTail =>
    match bs.drop f.offset with
    | [a, b] => a == 0xED && 0xA0 ≤ b && b ≤ 0xBF
    | _ => false

/-- The place of the bytes at fault, and what is wrong with them. -/
def message (f : Failure) : Text :=
  let place := match f.bytes with
    | [b] => lit "byte 0x" ++ hexDigits 2 b.toNat ++ lit " in position " ++ decimal f.offset
    | bs =>
      lit "bytes in position " ++ decimal f.offset ++ ['-'] ++
        decimal (f.offset + bs.length - 1)
  let reason := match f.flaw with
    | .badStart => lit "invalid start byte"
    | .badTail => lit "invalid continuation byte"
    | .cutOff => lit "unexpected end of data"
  lit "'utf-8' codec can't decode " ++ place ++ lit ": " ++ reason

end Failure

end Worksheet.Utf8
