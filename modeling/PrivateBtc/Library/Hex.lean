/- PrivateBtc/Library/Hex
   digest: Hexadecimal text of byte strings, read up to the first pair that is no byte. -/

import PrivateBtc.Library.Bytes

set_option autoImplicit false
set_option relaxedAutoImplicit false

namespace PrivateBtc.Library.Hex

def digit (value : Nat) : Char :=
  if value < 10 then Char.ofNat (48 + value) else Char.ofNat (87 + value)

def digitValue (c : Char) : Option Nat :=
  if '0' ≤ c ∧ c ≤ '9' then some (c.toNat - 48)
  else if 'a' ≤ c ∧ c ≤ 'f' then some (c.toNat - 87)
  else if 'A' ≤ c ∧ c ≤ 'F' then some (c.toNat - 55)
  else none

/-- Lower-case text, two digits a byte. -/
def encode : List UInt8 → List Char
  | [] => []
  | b :: rest => digit (b.toNat / 16) :: digit (b.toNat % 16) :: encode rest

def byteOf (high low : Char) : Option UInt8 :=
  match digitValue high, digitValue low with
  | some h, some l => some (UInt8.ofNat (16 * h + l))
  | _, _ => none

/-- Reading stops at the first pair that is not two digits; an odd last digit is dropped. -/
def decode : List Char → List UInt8
  | high :: low :: rest =>
      match byteOf high low with
      | some b => b :: decode rest
      | none => []
  | _ => []

/-- The text spells the bytes, in either letter case. -/
def Writes (text : List Char) (bytes : List UInt8) : Prop :=
  decode text = bytes ∧ text.length = 2 * bytes.length

instance (text : List Char) (bytes : List UInt8) : Decidable (Writes text bytes) :=
  inferInstanceAs (Decidable (decode text = bytes ∧ text.length = 2 * bytes.length))

private theorem digitValue_digit : ∀ value < 16, digitValue (digit value) = some value := by
  decide

theorem digitValue_lt {c : Char} {value : Nat} (digit : digitValue c = some value) :
    value < 16 := by
  unfold digitValue at digit
  split_ifs at digit with decimal lower upper
  · have high : c.toNat ≤ 57 := decimal.2
    cases digit
    omega
  · have high : c.toNat ≤ 102 := lower.2
    cases digit
    omega
  · have high : c.toNat ≤ 70 := upper.2
    cases digit
    omega

theorem digitValue_zero {c : Char} (digit : digitValue c = some 0) : c = '0' := by
  unfold digitValue at digit
  split_ifs at digit with decimal lower upper
  · have low : 48 ≤ c.toNat := decimal.1
    have zero : c.toNat = 48 := by
      simp only [Option.some.injEq] at digit
      omega
    exact Char.toNat_inj.mp zero
  · have low : 97 ≤ c.toNat := lower.1
    simp only [Option.some.injEq] at digit
    omega
  · have low : 65 ≤ c.toNat := upper.1
    simp only [Option.some.injEq] at digit
    omega

/-- Two digits make a byte, and only `00` makes the zero byte. -/
theorem byteOf_nonzero {high low : Char} :
    (∃ b, byteOf high low = some b ∧ b ≠ 0) ↔
      (digitValue high).isSome = true ∧ (digitValue low).isSome = true ∧
        ¬ (high = '0' ∧ low = '0') := by
  cases top : digitValue high with
  | none => simp [byteOf, top]
  | some h =>
      cases bottom : digitValue low with
      | none => simp [byteOf, top, bottom]
      | some l =>
          have h_lt := digitValue_lt top
          have l_lt := digitValue_lt bottom
          have zero : UInt8.ofNat (16 * h + l) = 0 ↔ high = '0' ∧ low = '0' := by
            rw [← UInt8.toNat_inj, UInt8.toNat_ofNat']
            constructor
            · intro vanishes
              have both : h = 0 ∧ l = 0 := by
                simp only [UInt8.toNat_zero] at vanishes
                omega
              obtain ⟨rfl, rfl⟩ := both
              exact ⟨digitValue_zero top, digitValue_zero bottom⟩
            · rintro ⟨rfl, rfl⟩
              cases top
              cases bottom
              rfl
          simp only [byteOf, top, bottom, Option.some.injEq, exists_eq_left', ne_eq, zero,
            Option.isSome_some, true_and]

/-- The digits of a byte are its two halves. -/
theorem digitValue_of_byteOf {high low : Char} {b : UInt8} (byte : byteOf high low = some b) :
    digitValue high = some (b.toNat / 16) ∧ digitValue low = some (b.toNat % 16) := by
  cases top : digitValue high with
  | none => simp [byteOf, top] at byte
  | some h =>
      cases bottom : digitValue low with
      | none => simp [byteOf, top, bottom] at byte
      | some l =>
          have h_lt := digitValue_lt top
          have l_lt := digitValue_lt bottom
          have number : (UInt8.ofNat (16 * h + l)).toNat = 16 * h + l := by
            rw [UInt8.toNat_ofNat']
            omega
          simp only [byteOf, top, bottom, Option.some.injEq] at byte
          rw [← byte, number]
          constructor
          · congr 1
            omega
          · congr 1
            omega

private theorem byteOf_digits (b : UInt8) :
    byteOf (digit (b.toNat / 16)) (digit (b.toNat % 16)) = some b := by
  have bound : b.toNat < 256 := b.toNat_lt
  rw [byteOf, digitValue_digit _ (by omega), digitValue_digit _ (by omega)]
  simp only [Option.some.injEq]
  rw [Nat.div_add_mod, UInt8.ofNat_toNat]

theorem decode_encode (bytes : List UInt8) : decode (encode bytes) = bytes := by
  induction bytes with
  | nil => rfl
  | cons b rest ih => rw [encode, decode, byteOf_digits, ih]

theorem decode_length_le (text : List Char) : 2 * (decode text).length ≤ text.length := by
  induction text using decode.induct with
  | case1 high low rest b byte ih =>
      simp only [decode, byte, List.length_cons]
      omega
  | case2 high low rest none => simp [decode, none]
  | case3 text short =>
      match text with
      | [] => simp [decode]
      | [c] => simp [decode]
      | high :: low :: tail => exact absurd rfl (short high low tail)

/-- The byte at a place is read when only digits stand before its pair. -/
theorem decode_getElem? (text : List Char) (k : Nat) (b : UInt8) :
    (decode text)[k]? = some b ↔
      (∀ c ∈ text.take (2 * k), (digitValue c).isSome = true) ∧
        ∃ high low, text[2 * k]? = some high ∧ text[2 * k + 1]? = some low ∧
          byteOf high low = some b := by
  induction k generalizing text with
  | zero =>
      match text with
      | [] => simp [decode]
      | [c] => simp [decode]
      | high :: low :: rest =>
          cases byte : byteOf high low with
          | none => simp [decode, byte]
          | some first => simp [decode, byte]
  | succ k ih =>
      match text with
      | [] => simp [decode]
      | [c] => simp [decode, Nat.mul_succ]
      | high :: low :: rest =>
          cases top : digitValue high with
          | none => simp [decode, byteOf, top, Nat.mul_succ]
          | some h =>
              cases bottom : digitValue low with
              | none => simp [decode, byteOf, top, bottom, Nat.mul_succ]
              | some l =>
                  simp [decode, byteOf, top, bottom, Nat.mul_succ, ih]
@[simp] theorem encode_length (bytes : List UInt8) : (encode bytes).length = 2 * bytes.length := by
  induction bytes with
  | nil => rfl
  | cons b rest ih =>
      simp only [encode, List.length_cons, ih]
      omega

theorem encode_append (left right : List UInt8) :
    encode (left ++ right) = encode left ++ encode right := by
  induction left with
  | nil => rfl
  | cons b rest ih => rw [List.cons_append, encode, ih, encode, List.cons_append, List.cons_append]

theorem encode_writes (bytes : List UInt8) : Writes (encode bytes) bytes :=
  ⟨decode_encode bytes, encode_length bytes⟩

theorem encode_injective {a b : List UInt8} (same : encode a = encode b) : a = b := by
  rw [← decode_encode a, same, decode_encode]

theorem decode_take (text : List Char) (n : Nat) :
    decode (text.take (2 * n)) = (decode text).take n := by
  induction n generalizing text with
  | zero => simp [decode]
  | succ n ih =>
      match text with
      | [] => simp [decode]
      | [c] => simp [Nat.mul_succ, decode]
      | high :: low :: rest =>
          rw [Nat.mul_succ, List.take_succ_cons, List.take_succ_cons, decode, decode]
          cases byteOf high low with
          | none => simp
          | some b => simp [ih]

theorem decode_drop (text : List Char) (n : Nat) (inside : n ≤ (decode text).length) :
    decode (text.drop (2 * n)) = (decode text).drop n := by
  induction n generalizing text with
  | zero => simp
  | succ n ih =>
      match text with
      | [] => simp [decode] at inside
      | [c] => simp [decode] at inside
      | high :: low :: rest =>
          rw [Nat.mul_succ, List.drop_succ_cons, List.drop_succ_cons]
          cases byte : byteOf high low with
          | none => simp [decode, byte] at inside
          | some b =>
              simp only [decode, byte, List.length_cons] at inside ⊢
              rw [List.drop_succ_cons]
              exact ih rest (by omega)

/-- Text that spells its bytes in full is read before what follows it. -/
theorem Writes.decode_append {text : List Char} {bytes : List UInt8} (writes : Writes text bytes)
    (rest : List Char) : decode (text ++ rest) = bytes ++ decode rest := by
  obtain ⟨rfl, length⟩ := writes
  induction text using decode.induct with
  | case1 high low tail b byte ih =>
      simp only [decode, byte, List.length_cons] at length
      simp only [List.cons_append, decode, byte, ih (by omega)]
  | case2 high low tail none =>
      simp [decode, none] at length
  | case3 text short =>
      match text with
      | [] => rfl
      | [c] => simp [decode] at length
      | high :: low :: tail => exact absurd rfl (short high low tail)

/-- A slice of the text spells the slice of the bytes. -/
theorem Writes.slice {text : List Char} {bytes : List UInt8} (writes : Writes text bytes)
    (start count : Nat) (inside : start + count ≤ bytes.length) :
    Writes ((text.drop (2 * start)).take (2 * count)) ((bytes.drop start).take count) := by
  obtain ⟨rfl, length⟩ := writes
  constructor
  · rw [decode_take, decode_drop text start (by omega)]
  · simp only [List.length_take, List.length_drop, length]
    omega

end PrivateBtc.Library.Hex
