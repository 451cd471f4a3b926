/- PrivateBtc/Library/Bytes
   digest: Fixed-width little-endian and big-endian numerals over byte lists. -/

import Mathlib.Data.Nat.Digits.Lemmas

set_option autoImplicit false
set_option relaxedAutoImplicit false

namespace PrivateBtc.Library.Bytes

/-- The value of a byte list read with its least significant byte first. -/
def fromLittleEndian (bytes : List UInt8) : Nat :=
  Nat.ofDigits 256 (bytes.map UInt8.toNat)

/-- The value of a byte list read with its most significant byte first. -/
def fromBigEndian (bytes : List UInt8) : Nat :=
  fromLittleEndian bytes.reverse

/-- The `width` low-order bytes of a number, least significant byte first. -/
def littleEndian : Nat → Nat → List UInt8
  | 0, _ => []
  | width + 1, n => UInt8.ofNat n :: littleEndian width (n / 256)

/-- The `width` low-order bytes of a number, most significant byte first. -/
def bigEndian (width n : Nat) : List UInt8 :=
  (littleEndian width n).reverse

@[simp] theorem fromLittleEndian_nil : fromLittleEndian [] = 0 := rfl

@[simp] theorem fromLittleEndian_cons (b : UInt8) (bytes : List UInt8) :
    fromLittleEndian (b :: bytes) = b.toNat + 256 * fromLittleEndian bytes := by
  simp [fromLittleEndian, Nat.ofDigits_cons]

theorem fromLittleEndian_lt (bytes : List UInt8) :
    fromLittleEndian bytes < 256 ^ bytes.length := by
  induction bytes with
  | nil => simp
  | cons b bytes ih =>
      have head : b.toNat < 256 := b.toNat_lt
      simp only [fromLittleEndian_cons, List.length_cons, pow_succ]
      omega

theorem fromBigEndian_lt (bytes : List UInt8) :
    fromBigEndian bytes < 256 ^ bytes.length := by
  simpa [fromBigEndian] using fromLittleEndian_lt bytes.reverse

theorem fromBigEndian_cons (b : UInt8) (bytes : List UInt8) :
    fromBigEndian (b :: bytes) = b.toNat * 256 ^ bytes.length + fromBigEndian bytes := by
  rw [fromBigEndian, fromBigEndian, List.reverse_cons, fromLittleEndian, fromLittleEndian,
    List.map_append, Nat.ofDigits_append, List.length_map, List.length_reverse]
  simp only [List.map_cons, List.map_nil, Nat.ofDigits_singleton]
  rw [Nat.mul_comm, Nat.add_comm]

@[simp] theorem littleEndian_length (width n : Nat) : (littleEndian width n).length = width := by
  induction width generalizing n with
  | zero => rfl
  | succ width ih => simp [littleEndian, ih]

@[simp] theorem bigEndian_length (width n : Nat) : (bigEndian width n).length = width := by
  simp [bigEndian]

/-- Writing a number in `width` bytes and reading it back keeps its low-order part. -/
theorem fromLittleEndian_littleEndian (width n : Nat) :
    fromLittleEndian (littleEndian width n) = n % 256 ^ width := by
  induction width generalizing n with
  | zero => simp [littleEndian, Nat.mod_one]
  | succ width ih =>
      have low : (UInt8.ofNat n).toNat = n % 256 := UInt8.toNat_ofNat'
      rw [littleEndian, fromLittleEndian_cons, ih, low, pow_succ', Nat.mod_mul]

theorem fromBigEndian_bigEndian (width n : Nat) :
    fromBigEndian (bigEndian width n) = n % 256 ^ width := by
  rw [fromBigEndian, bigEndian, List.reverse_reverse, fromLittleEndian_littleEndian]

/-- Every byte list is the numeral of its own value at its own width. -/
theorem littleEndian_fromLittleEndian (bytes : List UInt8) :
    littleEndian bytes.length (fromLittleEndian bytes) = bytes := by
  induction bytes with
  | nil => rfl
  | cons b bytes ih =>
      have head : b.toNat < 256 := b.toNat_lt
      have quotient : (b.toNat + 256 * fromLittleEndian bytes) / 256 =
          fromLittleEndian bytes := by omega
      have low : UInt8.ofNat (b.toNat + 256 * fromLittleEndian bytes) = b := by
        apply UInt8.toNat_inj.mp
        rw [UInt8.toNat_ofNat']
        omega
      rw [List.length_cons, fromLittleEndian_cons, littleEndian, quotient, ih, low]

theorem bigEndian_fromBigEndian (bytes : List UInt8) :
    bigEndian bytes.length (fromBigEndian bytes) = bytes := by
  have reversed := littleEndian_fromLittleEndian bytes.reverse
  rw [List.length_reverse] at reversed
  rw [bigEndian, fromBigEndian, reversed, List.reverse_reverse]

theorem littleEndian_injective {width m n : Nat} (hm : m < 256 ^ width) (hn : n < 256 ^ width)
    (same : littleEndian width m = littleEndian width n) : m = n := by
  have values := congrArg fromLittleEndian same
  rwa [fromLittleEndian_littleEndian, fromLittleEndian_littleEndian, Nat.mod_eq_of_lt hm,
    Nat.mod_eq_of_lt hn] at values

/-- Numbers that fit the width are determined by their numerals. -/
theorem bigEndian_injective {width m n : Nat} (hm : m < 256 ^ width) (hn : n < 256 ^ width)
    (same : bigEndian width m = bigEndian width n) : m = n := by
  have values := congrArg fromBigEndian same
  rwa [fromBigEndian_bigEndian, fromBigEndian_bigEndian, Nat.mod_eq_of_lt hm,
    Nat.mod_eq_of_lt hn] at values

end PrivateBtc.Library.Bytes
