import Worksheet.Text.Utf8

/-!
# Bytes of texts

The bytes of a text are read as this text (`Utf8.decode_encode`), so that no two texts have
the same bytes (`Utf8.encode_injective`).
-/

namespace Worksheet.Utf8

theorem toNat_tailByte (n : Nat) : (tailByte n).toNat = 0x80 + n % 64 := by
  rw [tailByte, UInt8.toNat_ofNat']
  omega

/-- A byte that continues a character adds six bits to it, if it lies in the range. -/
theorem readTail_cons {range : UInt8 × UInt8} {n : Nat} (hfirst : range.1.toNat ≤ 0x80 + n % 64)
    (hlast : 0x80 + n % 64 ≤ range.2.toNat) (count read value : Nat) (bs : List UInt8) :
    readTail range (count + 1) read value (tailByte n :: bs) =
      readTail (0x80, 0xBF) count (read + 1) (value * 64 + n % 64) bs := by
  have hrange : (decide (range.1 ≤ tailByte n) && decide (tailByte n ≤ range.2)) = true := by
    rw [Bool.and_eq_true, decide_eq_true_eq, decide_eq_true_eq, UInt8.le_iff_toNat_le,
      UInt8.le_iff_toNat_le, toNat_tailByte]
    exact ⟨hfirst, hlast⟩
  rw [readTail, if_pos hrange, toNat_tailByte, Nat.add_sub_cancel_left]

theorem readTail_cons_last (n count read value : Nat) (bs : List UInt8) :
    readTail (0x80, 0xBF) (count + 1) read value (tailByte n :: bs) =
      readTail (0x80, 0xBF) count (read + 1) (value * 64 + n % 64) bs := by
  refine readTail_cons ?_ ?_ count read value bs
  · show 0x80 ≤ _
    omega
  · show _ ≤ 0xBF
    omega

/-- The first byte of a character, by its number. -/
theorem leadOf?_ofNat {k : Nat} (hk : k < 256) :
    leadOf? (UInt8.ofNat k) =
      if k < 0x80 then some (0, k)
      else if k < 0xC2 then none
      else if k < 0xE0 then some (1, k - 0xC0)
      else if k < 0xF0 then some (2, k - 0xE0)
      else if k < 0xF5 then some (3, k - 0xF0)
      else none := by
  rw [leadOf?, UInt8.toNat_ofNat', Nat.mod_eq_of_lt hk]

theorem ofNat_eq_iff {k m : Nat} (hk : k < 256) (hm : m < 256) : UInt8.ofNat k = UInt8.ofNat m ↔ k = m := by
  rw [← UInt8.toNat_inj, UInt8.toNat_ofNat', UInt8.toNat_ofNat', Nat.mod_eq_of_lt hk, Nat.mod_eq_of_lt hm]

/-- The bytes that can be second in a character, by the number of the first. -/
theorem secondRange_ofNat {k : Nat} (hk : k < 256) :
    secondRange (UInt8.ofNat k) =
      if k = 0xE0 then (0xA0, 0xBF)
      else if k = 0xED then (0x80, 0x9F)
      else if k = 0xF0 then (0x90, 0xBF)
      else if k = 0xF4 then (0x80, 0x8F)
      else (0x80, 0xBF) := by
  simp only [secondRange, ← ofNat_eq_iff hk (show 0xE0 < 256 by decide),
    ← ofNat_eq_iff hk (show 0xED < 256 by decide), ← ofNat_eq_iff hk (show 0xF0 < 256 by decide),
    ← ofNat_eq_iff hk (show 0xF4 < 256 by decide)]
  rfl

theorem readChar_of_readTail {b : UInt8} {bs : List UInt8} {count n : Nat} (bits : Nat)
    (hlead : leadOf? b = some (count, bits)) (htail : readTail (secondRange b) count 1 bits bs = .ok n) :
    readChar b bs = .ok (Char.ofNat n, count) := by
  rw [readChar, hlead]
  simp only [htail]
  rfl

/-- The number of a character from its last six bits and those before. -/
theorem div_mul_add_mod (n : Nat) : n / 64 * 64 + n % 64 = n := by omega

theorem readChar_two {n : Nat} (h : 0x80 ≤ n) (h' : n < 0x800) (bs : List UInt8) :
    readChar (UInt8.ofNat (0xC0 + n / 64)) (tailByte n :: bs) = .ok (Char.ofNat n, 1) := by
  have hk : 0xC0 + n / 64 < 256 := by omega
  refine readChar_of_readTail (n / 64) ?_ ?_
  · rw [leadOf?_ofNat hk, if_neg (by omega), if_neg (by omega), if_pos (by omega), Nat.add_sub_cancel_left]
  · rw [secondRange_ofNat hk, if_neg (by omega), if_neg (by omega), if_neg (by omega), if_neg (by omega),
      readTail_cons_last, div_mul_add_mod]
    rfl

theorem readChar_three {n : Nat} (h : 0x800 ≤ n) (h' : n < 0x10000) (hvalid : n.isValidChar)
    (bs : List UInt8) :
    readChar (UInt8.ofNat (0xE0 + n / 4096)) (tailByte (n / 64) :: tailByte n :: bs) =
      .ok (Char.ofNat n, 2) := by
  have hk : 0xE0 + n / 4096 < 256 := by omega
  refine readChar_of_readTail (n / 4096) ?_ ?_
  · rw [leadOf?_ofNat hk, if_neg (by omega), if_neg (by omega), if_neg (by omega), if_pos (by omega),
      Nat.add_sub_cancel_left]
  · -- The second byte depends on the first where the character could be shorter or a surrogate.
    have hrange : (secondRange (UInt8.ofNat (0xE0 + n / 4096))).1.toNat ≤ 0x80 + n / 64 % 64 ∧
        0x80 + n / 64 % 64 ≤ (secondRange (UInt8.ofNat (0xE0 + n / 4096))).2.toNat := by
      rw [secondRange_ofNat hk]
      unfold Nat.isValidChar at hvalid
      split
      · show 0xA0 ≤ _ ∧ _ ≤ 0xBF
        omega
      · split
        · show 0x80 ≤ _ ∧ _ ≤ 0x9F
          omega
        · rw [if_neg (by omega), if_neg (by omega)]
          show 0x80 ≤ _ ∧ _ ≤ 0xBF
          omega
    rw [readTail_cons hrange.1 hrange.2, readTail_cons_last]
    have hn : (n / 4096 * 64 + n / 64 % 64) * 64 + n % 64 = n := by omega
    rw [hn]
    rfl

theorem readChar_four {n : Nat} (h : 0x10000 ≤ n) (hvalid : n.isValidChar) (bs : List UInt8) :
    readChar (UInt8.ofNat (0xF0 + n / 262144))
        (tailByte (n / 4096) :: tailByte (n / 64) :: tailByte n :: bs) = .ok (Char.ofNat n, 3) := by
  unfold Nat.isValidChar at hvalid
  have hk : 0xF0 + n / 262144 < 256 := by omega
  refine readChar_of_readTail (n / 262144) ?_ ?_
  · rw [leadOf?_ofNat hk, if_neg (by omega), if_neg (by omega), if_neg (by omega), if_neg (by omega),
      if_pos (by omega), Nat.add_sub_cancel_left]
  · have hrange : (secondRange (UInt8.ofNat (0xF0 + n / 262144))).1.toNat ≤ 0x80 + n / 4096 % 64 ∧
        0x80 + n / 4096 % 64 ≤ (secondRange (UInt8.ofNat (0xF0 + n / 262144))).2.toNat := by
      rw [secondRange_ofNat hk, if_neg (by omega), if_neg (by omega)]
      split
      · show 0x90 ≤ _ ∧ _ ≤ 0xBF
        omega
      · split
        · show 0x80 ≤ _ ∧ _ ≤ 0x8F
          omega
        · show 0x80 ≤ _ ∧ _ ≤ 0xBF
          omega
    rw [readTail_cons hrange.1 hrange.2, readTail_cons_last, readTail_cons_last]
    have hn : ((n / 262144 * 64 + n / 4096 % 64) * 64 + n / 64 % 64) * 64 + n % 64 = n := by omega
    rw [hn]
    rfl

/-- The bytes of a character are read as the character. -/
theorem readChar_encodeChar (c : Char) :
    ∃ b tail, encodeChar c = b :: tail ∧ ∀ bs, readChar b (tail ++ bs) = .ok (c, tail.length) := by
  have hvalid : c.toNat.isValidChar := c.valid
  suffices h : ∃ b tail, encodeChar c = b :: tail ∧
      ∀ bs, readChar b (tail ++ bs) = .ok (Char.ofNat c.toNat, tail.length) by
    rwa [Char.ofNat_toNat] at h
  simp only [encodeChar]
  split
  · rename_i h
    refine ⟨_, [], rfl, fun bs => ?_⟩
    have hlead := leadOf?_ofNat (k := c.toNat) (by omega)
    rw [if_pos h] at hlead
    exact readChar_of_readTail _ hlead rfl
  · rename_i h₁
    split
    · rename_i h₂
      refine ⟨_, [_], rfl, fun bs => ?_⟩
      exact readChar_two (by omega) h₂ bs
    · rename_i h₂
      split
      · rename_i h₃
        refine ⟨_, [_, _], rfl, fun bs => ?_⟩
        exact readChar_three (by omega) h₃ hvalid bs
      · rename_i h₃
        refine ⟨_, [_, _, _], rfl, fun bs => ?_⟩
        exact readChar_four (by omega) hvalid bs

theorem decodeFrom_append (offset : Nat) (skipped bs : List UInt8) :
    decodeFrom skipped.length offset (skipped ++ bs) = decodeFrom 0 (offset + skipped.length) bs := by
  induction skipped generalizing offset with
  | nil => rfl
  | cons b skipped ih =>
    rw [List.length_cons, List.cons_append, decodeFrom, ih, Nat.add_right_comm, Nat.add_assoc]

theorem decodeFrom_encode (offset : Nat) (t : Text) : decodeFrom 0 offset (encode t) = .ok t := by
  induction t generalizing offset with
  | nil => rfl
  | cons c t ih =>
    obtain ⟨b, tail, hbytes, hread⟩ := readChar_encodeChar c
    have hencode : encode (c :: t) = b :: (tail ++ encode t) := by
      rw [encode, List.flatMap_cons, hbytes]
      rfl
    rw [hencode, decodeFrom, hread]
    simp only [decodeFrom_append, ih]
    rfl

/-- The bytes of a text are read as this text. -/
theorem decode_encode (t : Text) : decode (encode t) = .ok t := decodeFrom_encode 0 t

/-- No two texts have the same bytes. -/
theorem encode_injective {s t : Text} (h : encode s = encode t) : s = t :=
  Except.ok.inj ((decode_encode s).symm.trans (h ▸ decode_encode t))

end Worksheet.Utf8
