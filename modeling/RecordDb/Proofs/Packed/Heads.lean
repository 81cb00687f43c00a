import Mathlib.Algebra.Group.Nat.Defs
import RecordDb.Wire.Packed

/-!
# Heads of packed documents

Reading a tag with its length or its number gives back what was written, and leaves the bytes that
follow.
-/
namespace RecordDb.Wire.Packed

theorem ofBigEndian_bigEndian (width n : Nat) (h : n < 256 ^ width) :
    ofBigEndian (bigEndian width n) = n := by
  induction width generalizing n with
  | zero =>
    have hn : n = 0 := by simpa using h
    simp [bigEndian, ofBigEndian, hn]
  | succ width ih =>
    have hd : n / 256 < 256 ^ width := by
      rw [Nat.pow_succ] at h
      omega
    rw [bigEndian, ofBigEndian_append, ih _ hd, UInt8.toNat_ofNat']
    omega

@[simp] theorem takeBytes?_append (front rest : List UInt8) :
    takeBytes? front.length (front ++ rest) = some (front, rest) := by
  induction front with
  | nil => rfl
  | cons b front ih => simp [takeBytes?, ih]

theorem number?_bigEndian (width n : Nat) (h : n < 256 ^ width) (rest : List UInt8) :
    number? width (bigEndian width n ++ rest) = some (n, rest) := by
  have ht := takeBytes?_append (bigEndian width n) rest
  rw [length_bigEndian] at ht
  simp only [number?, ht, Option.map_some, ofBigEndian_bigEndian width n h]

theorem utf8Text?_utf8 (s : String) : utf8Text? (utf8 s) = some s := by
  unfold utf8Text? utf8 String.fromUTF8?
  rw [String.toUTF8_eq_toByteArray, Array.toArray_toList, dif_pos s.isValidUTF8]
  rfl

/-! A length of less than 2^32 announces its contents, in whichever form it is written. -/

theorem head?_textHead (n : Nat) (h : n < 0x100000000) (rest : List UInt8) :
    head? (textHead n ++ rest) = some (.text n, rest) := by
  rw [textHead]
  split
  · have ht : (UInt8.ofNat (0xa0 + n)).toNat = 0xa0 + n := by
      rw [UInt8.toNat_ofNat']; omega
    simp only [List.cons_append, List.nil_append, head?, ht]
    rw [if_neg (by omega), if_neg (by omega), if_neg (by omega), if_pos (by omega),
      Nat.add_sub_cancel_left]
  · split
    · simp [head?, tagged, number?_bigEndian 1 n (by omega)]
    · split
      · simp [head?, tagged, number?_bigEndian 2 n (by omega)]
      · simp [head?, tagged, number?_bigEndian 4 n (by omega)]

theorem head?_bytesHead (n : Nat) (h : n < 0x100000000) (rest : List UInt8) :
    head? (bytesHead n ++ rest) = some (.bytes n, rest) := by
  rw [bytesHead]
  split
  · simp [head?, tagged, number?_bigEndian 1 n (by omega)]
  · split
    · simp [head?, tagged, number?_bigEndian 2 n (by omega)]
    · simp [head?, tagged, number?_bigEndian 4 n (by omega)]

theorem head?_arrHead (n : Nat) (h : n < 0x100000000) (rest : List UInt8) :
    head? (arrHead n ++ rest) = some (.arr n, rest) := by
  rw [arrHead]
  split
  · have ht : (UInt8.ofNat (0x90 + n)).toNat = 0x90 + n := by
      rw [UInt8.toNat_ofNat']; omega
    simp only [List.cons_append, List.nil_append, head?, ht]
    rw [if_neg (by omega), if_neg (by omega), if_pos (by omega),
      Nat.add_sub_cancel_left]
  · split
    · simp [head?, tagged, number?_bigEndian 2 n (by omega)]
    · simp [head?, tagged, number?_bigEndian 4 n (by omega)]

theorem head?_objHead (n : Nat) (h : n < 0x100000000) (rest : List UInt8) :
    head? (objHead n ++ rest) = some (.obj n, rest) := by
  rw [objHead]
  split
  · have ht : (UInt8.ofNat (0x80 + n)).toNat = 0x80 + n := by
      rw [UInt8.toNat_ofNat']; omega
    simp only [List.cons_append, List.nil_append, head?, ht]
    rw [if_neg (by omega), if_pos (by omega),
      Nat.add_sub_cancel_left]
  · split
    · simp [head?, tagged, number?_bigEndian 2 n (by omega)]
    · simp [head?, tagged, number?_bigEndian 4 n (by omega)]

/-! Numbers of 64 bits, signed or not, come back from their shortest form. -/

theorem intDoc_of_neg (width : Nat) (isSigned : Bool) (i : Int) (h : i < 0) :
    intDoc width isSigned i = .int i := by
  rw [intDoc, if_pos h]

/-- A number keeps no form of its own when it was written in its shortest form. -/
theorem intDoc_of_encodeInt (tag : UInt8) (width n : Nat) (h : encodeInt n = tagged tag width n) :
    intDoc width false n = .int n := by
  have hl : (encodeInt n).length = width + 1 := by simp [h, tagged]
  rw [intDoc, if_neg (by omega), if_neg (by simp [hl])]

theorem encodeInt_natCast (n : Nat) :
    encodeInt n =
      if n < 0x80 then [UInt8.ofNat n]
      else if n < 0x100 then tagged 0xcc 1 n
      else if n < 0x10000 then tagged 0xcd 2 n
      else if n < 0x100000000 then tagged 0xce 4 n
      else tagged 0xcf 8 n := by
  rw [encodeInt, if_pos (by omega)]
  rfl

theorem head?_encodeInt_natCast (n : Nat) (h : n < 0x10000000000000000) (rest : List UInt8) :
    head? (encodeInt n ++ rest) = some (.done (.int n), rest) := by
  by_cases h1 : n < 0x80
  · have ht : (UInt8.ofNat n).toNat = n := by
      rw [UInt8.toNat_ofNat']; omega
    rw [encodeInt_natCast, if_pos h1]
    simp only [List.cons_append, List.nil_append, head?, ht]
    rw [if_pos h1]
  by_cases h2 : n < 0x100
  · have he : encodeInt n = tagged 0xcc 1 n := by
      rw [encodeInt_natCast, if_neg h1, if_pos h2]
    rw [he]
    simp [head?, tagged, number?_bigEndian 1 n (by omega), intDoc_of_encodeInt 0xcc 1 n he]
  by_cases h3 : n < 0x10000
  · have he : encodeInt n = tagged 0xcd 2 n := by
      rw [encodeInt_natCast, if_neg h1, if_neg h2, if_pos h3]
    rw [he]
    simp [head?, tagged, number?_bigEndian 2 n (by omega), intDoc_of_encodeInt 0xcd 2 n he]
  by_cases h4 : n < 0x100000000
  · have he : encodeInt n = tagged 0xce 4 n := by
      rw [encodeInt_natCast, if_neg h1, if_neg h2, if_neg h3, if_pos h4]
    rw [he]
    simp [head?, tagged, number?_bigEndian 4 n (by omega), intDoc_of_encodeInt 0xce 4 n he]
  · have he : encodeInt n = tagged 0xcf 8 n := by
      rw [encodeInt_natCast, if_neg h1, if_neg h2, if_neg h3, if_neg h4]
    rw [he]
    simp [head?, tagged, number?_bigEndian 8 n (by omega), intDoc_of_encodeInt 0xcf 8 n he]

/-- A negative number comes back from its two's complement. -/
theorem signed_complement (half : Nat) (modulus i : Int) (hm : modulus = 2 * half)
    (hl : -half ≤ i) (hu : i < 0) : signed half (modulus + i).toNat = i := by
  rw [signed, if_neg (by omega)]
  omega

theorem head?_encodeInt_neg (i : Int) (hl : -0x8000000000000000 ≤ i) (hu : i < 0)
    (rest : List UInt8) : head? (encodeInt i ++ rest) = some (.done (.int i), rest) := by
  have hd (width : Nat) : intDoc width true i = .int i := intDoc_of_neg width true i hu
  rw [encodeInt, if_neg (by omega)]
  by_cases h1 : -0x20 ≤ i
  · have ht : (UInt8.ofNat (0x100 + i).toNat).toNat = (0x100 + i).toNat := by
      rw [UInt8.toNat_ofNat']; omega
    have hi : ((0x100 + i).toNat : Int) - 0x100 = i := by omega
    rw [if_pos h1]
    simp only [List.cons_append, List.nil_append, head?, ht]
    rw [if_neg (by omega), if_neg (by omega), if_neg (by omega), if_neg (by omega),
      if_pos (by omega), hi]
  rw [if_neg h1]
  by_cases h2 : -0x80 ≤ i
  · have hs := signed_complement 0x80 0x100 i rfl h2 hu
    rw [if_pos h2]
    simp [head?, tagged, number?_bigEndian 1 (0x100 + i).toNat (by omega), hs, hd]
  rw [if_neg h2]
  by_cases h3 : -0x8000 ≤ i
  · have hs := signed_complement 0x8000 0x10000 i rfl h3 hu
    rw [if_pos h3]
    simp [head?, tagged, number?_bigEndian 2 (0x10000 + i).toNat (by omega), hs, hd]
  rw [if_neg h3]
  by_cases h4 : -0x80000000 ≤ i
  · have hs := signed_complement 0x80000000 0x100000000 i rfl h4 hu
    rw [if_pos h4]
    simp [head?, tagged, number?_bigEndian 4 (0x100000000 + i).toNat (by omega), hs, hd]
  · have hs := signed_complement 0x8000000000000000 0x10000000000000000 i rfl hl hu
    rw [if_neg h4]
    simp [head?, tagged, number?_bigEndian 8 (0x10000000000000000 + i).toNat (by omega), hs, hd]

end RecordDb.Wire.Packed
