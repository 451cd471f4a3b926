/- PrivateBtc/Contracts/Hashing
   digest: The contract's SHA-256 word packing is exact only for messages with a zero tail. -/

import PrivateBtc.Library.Sha256

set_option autoImplicit false
set_option relaxedAutoImplicit false

namespace PrivateBtc.Contracts.Hashing

open Library.Bytes Library.Words
open Library.Sha256 (sha256)

/-- The contract's `[u32; 8]`: a digest as eight big-endian words. -/
abbrev Digest := Words8

/-- A hash of byte strings in the role of SHA-256. -/
abbrev HashFunction := List UInt8 → Digest

/-- The corelib convention of `compute_sha256_u32_array`: the whole words come
first, then the low-order `lastNumBytes` bytes of the last word. -/
def computeSha256U32Array (sha : HashFunction) (words : List UInt32) (lastWord : UInt32)
    (lastNumBytes : Nat) : Digest :=
  sha (words.flatMap wordBytes ++ bigEndian lastNumBytes lastWord.toNat)

/-- One full word of `sha256_bytes`; the sum never reaches 2^32. -/
def packWord (b0 b1 b2 b3 : UInt8) : UInt32 :=
  b0.toUInt32 * 0x1000000 + b1.toUInt32 * 0x10000 + b2.toUInt32 * 0x100 + b3.toUInt32

/-- The full words of the span, in order. -/
def fullWords (data : List UInt8) : List UInt32 :=
  List.ofFn fun i : Fin (data.length / 4) =>
    have inside := i.isLt
    packWord data[i.val * 4] data[i.val * 4 + 1] data[i.val * 4 + 2] data[i.val * 4 + 3]

/-- The last partial word: its bytes stand in the high-order positions. -/
def lastWord (data : List UInt8) : UInt32 :=
  let full := data.length / 4
  let rem := data.length % 4
  if h0 : rem = 0 then 0
  else if h1 : rem = 1 then data[full * 4].toUInt32 * 0x1000000
  else if h2 : rem = 2 then
    data[full * 4].toUInt32 * 0x1000000 + data[full * 4 + 1].toUInt32 * 0x10000
  else
    data[full * 4].toUInt32 * 0x1000000 + data[full * 4 + 1].toUInt32 * 0x10000
      + data[full * 4 + 2].toUInt32 * 0x100

def sha256Bytes (sha : HashFunction) (data : List UInt8) : Digest :=
  computeSha256U32Array sha (fullWords data) (lastWord data) (data.length % 4)

/-- Append a word as four big-endian bytes. -/
def pushU32Be (arr : List UInt8) (word : UInt32) : List UInt8 :=
  arr ++ [((word / 0x1000000) &&& 0xff).toUInt8, ((word / 0x10000) &&& 0xff).toUInt8,
    ((word / 0x100) &&& 0xff).toUInt8, (word &&& 0xff).toUInt8]

def doubleSha256 (sha : HashFunction) (data : List UInt8) : Digest :=
  let inner := sha256Bytes sha data
  sha256Bytes sha (inner.toList.foldl pushU32Be [])

/-- The message the callee hashes when the contract hands it `data`. -/
def hashedMessage (data : List UInt8) : List UInt8 :=
  (fullWords data).flatMap wordBytes ++ bigEndian (data.length % 4) (lastWord data).toNat

/-- Every byte after the last full word is zero. -/
def ZeroTail (data : List UInt8) : Prop :=
  ∀ b ∈ data.drop (data.length / 4 * 4), b = 0

instance (data : List UInt8) : Decidable (ZeroTail data) :=
  inferInstanceAs (Decidable (∀ b ∈ data.drop (data.length / 4 * 4), b = 0))

/-- What the callee reads in place of the bytes after the last full word: the
low-order bytes of a word that carries them in its high-order bytes. -/
def misplaced : List UInt8 → List UInt8
  | [_] => [0]
  | [_, _] => [0, 0]
  | [_, b1, b2] => [b1, b2, 0]
  | _ => []

/-- No other message of the same length has the hash of this one. -/
def SecondPreimageFree (hash : HashFunction) (data : List UInt8) : Prop :=
  ∀ other : List UInt8, other.length = data.length → hash other = hash data → other = data

/-- Bitcoin's hash: the digest of the digest. -/
def bitcoinHash (sha : HashFunction) (data : List UInt8) : Digest :=
  sha (sha data).bytes

theorem packWord_eq (b0 b1 b2 b3 : UInt8) : packWord b0 b1 b2 b3 = wordOfBytes [b0, b1, b2, b3] := by
  have h0 : b0.toNat < 256 := b0.toNat_lt
  have h1 : b1.toNat < 256 := b1.toNat_lt
  have h2 : b2.toNat < 256 := b2.toNat_lt
  have h3 : b3.toNat < 256 := b3.toNat_lt
  apply UInt32.toNat_inj.mp
  simp [packWord, wordOfBytes, fromBigEndian]
  omega

theorem pushU32Be_eq (arr : List UInt8) (word : UInt32) :
    pushU32Be arr word = arr ++ wordBytes word := by
  have bound := word.toNat_lt
  rw [pushU32Be, wordBytes]
  congr 1
  simp only [bigEndian, littleEndian, List.reverse_cons, List.reverse_nil, List.nil_append,
    List.cons_append, List.cons.injEq, and_true]
  have low (n : Nat) : n &&& 255 = n % 256 := Nat.and_two_pow_sub_one_eq_mod n 8
  refine ⟨?_, ?_, ?_, ?_⟩ <;>
    (apply UInt8.toNat_inj.mp
     simp [UInt8.toNat_ofNat', low] <;> omega)

private theorem foldl_pushU32Be (words : List UInt32) (arr : List UInt8) :
    words.foldl pushU32Be arr = arr ++ words.flatMap wordBytes := by
  induction words generalizing arr with
  | nil => simp
  | cons word words ih => rw [List.foldl_cons, ih, pushU32Be_eq, List.flatMap_cons, List.append_assoc]

/-- Words written one after the other are the bytes of the digest. -/
theorem foldl_pushU32Be_append (d : Digest) (arr : List UInt8) :
    d.toList.foldl pushU32Be arr = arr ++ d.bytes :=
  foldl_pushU32Be d.toList arr

theorem foldl_pushU32Be_toList (d : Digest) : d.toList.foldl pushU32Be [] = d.bytes := by
  rw [foldl_pushU32Be_append, List.nil_append]

private theorem wordsOfBytes_getElem? (source : List UInt8) (i : Nat)
    (inside : 4 * i + 3 < source.length) :
    (wordsOfBytes source)[i]? =
      some (wordOfBytes [source[4 * i], source[4 * i + 1], source[4 * i + 2], source[4 * i + 3]]) := by
  induction source using wordsOfBytes.induct generalizing i with
  | case1 b0 b1 b2 b3 rest ih =>
      rw [wordsOfBytes]
      cases i with
      | zero => rfl
      | succ i =>
          have shorter : 4 * i + 3 < rest.length := by
            simp only [List.length_cons] at inside
            omega
          have shift : 4 * (i + 1) = 4 * i + 1 + 1 + 1 + 1 := by ring
          rw [List.getElem?_cons_succ, ih i shorter]
          simp only [shift, List.getElem_cons_succ]
  | case2 source short =>
      rcases source with _ | ⟨b0, _ | ⟨b1, _ | ⟨b2, _ | ⟨b3, rest⟩⟩⟩⟩
      · simp at inside
      · simp at inside
      · simp at inside
      · simp at inside
      · exact absurd rfl (short b0 b1 b2 b3 rest)

private theorem fullWords_eq (data : List UInt8) :
    fullWords data = wordsOfBytes (data.take (data.length / 4 * 4)) := by
  have width : (data.take (data.length / 4 * 4)).length = 4 * (data.length / 4) := by
    rw [List.length_take]
    omega
  have count := (flatMap_wordsOfBytes _ _ width).2
  apply List.ext_getElem?
  intro i
  by_cases inside : i < data.length / 4
  · rw [wordsOfBytes_getElem? _ i (by omega)]
    simp [fullWords, inside, packWord_eq, Nat.mul_comm]
  · rw [List.getElem?_eq_none (by simp [fullWords]; omega),
      List.getElem?_eq_none (by rw [count]; omega)]

/-- The loop over full words hands every full word to the callee unchanged. -/
theorem fullWords_bytes (data : List UInt8) :
    (fullWords data).flatMap wordBytes = data.take (data.length / 4 * 4) := by
  have width : (data.take (data.length / 4 * 4)).length = 4 * (data.length / 4) := by
    rw [List.length_take]
    omega
  rw [fullWords_eq]
  exact (flatMap_wordsOfBytes _ _ width).1

private theorem byte_eq {n : Nat} {b : UInt8} (low : n % 256 = b.toNat) : UInt8.ofNat n = b := by
  apply UInt8.toNat_inj.mp
  rw [UInt8.toNat_ofNat']
  exact low

private theorem lastWord_append (front tail : List UInt8) (count : Nat)
    (aligned : front.length = count * 4) (short : tail.length < 4) :
    bigEndian ((front ++ tail).length % 4) (lastWord (front ++ tail)).toNat = misplaced tail := by
  have full : (front ++ tail).length / 4 = count := by
    rw [List.length_append]
    omega
  have rem : (front ++ tail).length % 4 = tail.length := by
    rw [List.length_append]
    omega
  match tail, short with
  | [], _ =>
      have rem : (front ++ []).length % 4 = 0 := rem
      simp only [rem]
      rfl
  | [b], _ =>
      have rem : (front ++ [b]).length % 4 = 1 := rem
      simp only [lastWord, rem, full, ← aligned]
      simp only [bigEndian, littleEndian, misplaced]
      simp
      exact byte_eq (by simp; omega)
  | [b0, b1], _ =>
      have rem : (front ++ [b0, b1]).length % 4 = 2 := rem
      simp only [lastWord, rem, full, ← aligned]
      simp [bigEndian, littleEndian, misplaced]
      exact ⟨byte_eq (by simp; omega), byte_eq (by simp; omega)⟩
  | [b0, b1, b2], _ =>
      have rem : (front ++ [b0, b1, b2]).length % 4 = 3 := rem
      have h0 : b0.toNat < 256 := b0.toNat_lt
      have h1 : b1.toNat < 256 := b1.toNat_lt
      have h2 : b2.toNat < 256 := b2.toNat_lt
      simp only [lastWord, rem, full, ← aligned]
      simp [bigEndian, littleEndian, misplaced]
      exact ⟨byte_eq (by omega), byte_eq (by omega), byte_eq (by simp; omega)⟩

/-- The callee hashes the full words as they are and a misplaced tail. -/
theorem hashedMessage_eq (data : List UInt8) :
    hashedMessage data =
      data.take (data.length / 4 * 4) ++ misplaced (data.drop (data.length / 4 * 4)) := by
  have aligned : (data.take (data.length / 4 * 4)).length = data.length / 4 * 4 := by
    rw [List.length_take]
    omega
  have short : (data.drop (data.length / 4 * 4)).length < 4 := by
    rw [List.length_drop]
    omega
  have tail := lastWord_append _ _ _ aligned short
  rw [List.take_append_drop] at tail
  rw [hashedMessage, fullWords_bytes, tail]

theorem sha256Bytes_eq (sha : HashFunction) (data : List UInt8) :
    sha256Bytes sha data = sha (hashedMessage data) := rfl

private theorem misplaced_length {tail : List UInt8} (short : tail.length < 4) :
    (misplaced tail).length = tail.length := by
  match tail, short with
  | [], _ | [_], _ | [_, _], _ | [_, _, _], _ => rfl

private theorem misplaced_eq_self {tail : List UInt8} (short : tail.length < 4) :
    misplaced tail = tail ↔ ∀ b ∈ tail, b = 0 := by
  match tail, short with
  | [], _ => simp [misplaced]
  | [b], _ => simp [misplaced, @eq_comm UInt8 0]
  | [b0, b1], _ => simp [misplaced, @eq_comm UInt8 0]
  | [b0, b1, b2], _ =>
      simp only [misplaced, List.cons.injEq, and_true, List.mem_cons, List.not_mem_nil, or_false,
        forall_eq_or_imp, forall_eq]
      constructor
      · rintro ⟨rfl, rfl, rfl⟩
        exact ⟨rfl, rfl, rfl⟩
      · rintro ⟨rfl, rfl, rfl⟩
        exact ⟨rfl, rfl, rfl⟩

theorem hashedMessage_length (data : List UInt8) : (hashedMessage data).length = data.length := by
  have short : (data.drop (data.length / 4 * 4)).length < 4 := by
    rw [List.length_drop]
    omega
  rw [hashedMessage_eq, List.length_append, misplaced_length short, ← List.length_append,
    List.take_append_drop]

/-- The callee reads the message itself exactly when the tail is zero. -/
theorem hashedMessage_eq_self (data : List UInt8) : hashedMessage data = data ↔ ZeroTail data := by
  have short : (data.drop (data.length / 4 * 4)).length < 4 := by
    rw [List.length_drop]
    omega
  rw [hashedMessage_eq, ZeroTail, ← misplaced_eq_self short]
  constructor
  · intro same
    have whole := List.take_append_drop (data.length / 4 * 4) data
    exact List.append_cancel_left (same.trans whole.symm)
  · intro same
    rw [same, List.take_append_drop]

/-- A span of whole words has no tail to misread. -/
theorem zeroTail_of_aligned {data : List UInt8} (aligned : data.length % 4 = 0) : ZeroTail data := by
  have whole : data.length / 4 * 4 = data.length := by omega
  intro b member
  rw [whole, List.drop_length] at member
  exact absurd member (List.not_mem_nil)

theorem sha256Bytes_of_zeroTail (sha : HashFunction) {data : List UInt8} (zero : ZeroTail data) :
    sha256Bytes sha data = sha data := by
  rw [sha256Bytes_eq, (hashedMessage_eq_self data).mpr zero]

theorem doubleSha256_eq (sha : HashFunction) (data : List UInt8) :
    doubleSha256 sha data = bitcoinHash sha (hashedMessage data) := by
  rw [doubleSha256, foldl_pushU32Be_toList, sha256Bytes_of_zeroTail, sha256Bytes_eq, bitcoinHash]
  exact zeroTail_of_aligned (by simp)

theorem doubleSha256_of_zeroTail (sha : HashFunction) {data : List UInt8} (zero : ZeroTail data) :
    doubleSha256 sha data = bitcoinHash sha data := by
  rw [doubleSha256_eq, (hashedMessage_eq_self data).mpr zero]

/-- A hash that keeps 32-byte strings and tells `data` from every other message. -/
private def telling (data : List UInt8) : HashFunction := fun message =>
  if message.length = 32 then Words8.ofBytes message
  else if message = data then ⟨1, 0, 0, 0, 0, 0, 0, 0⟩
  else ⟨0, 0, 0, 0, 0, 0, 0, 0⟩

private theorem telling_ne {data other : List UInt8} (width : data.length % 4 ≠ 0)
    (same_width : other.length = data.length) (different : other ≠ data) :
    telling data other ≠ telling data data ∧
      bitcoinHash (telling data) other ≠ bitcoinHash (telling data) data := by
  have long : data.length ≠ 32 := by omega
  have on_data : telling data data = ⟨1, 0, 0, 0, 0, 0, 0, 0⟩ := by simp [telling, long]
  have on_other : telling data other = ⟨0, 0, 0, 0, 0, 0, 0, 0⟩ := by
    simp [telling, same_width, long, different]
  have on_bytes (d : Digest) : telling data d.bytes = d := by simp [telling]
  rw [bitcoinHash, bitcoinHash, on_bytes, on_bytes, on_data, on_other]
  decide

private theorem misread_of_not_zeroTail {data : List UInt8} (tail : ¬ ZeroTail data) :
    data.length % 4 ≠ 0 ∧ hashedMessage data ≠ data :=
  ⟨fun aligned => tail (zeroTail_of_aligned aligned), fun same =>
    tail ((hashedMessage_eq_self data).mp same)⟩

/-- The packing hands every hash function its message, for one hash and for the
double hash, exactly when the bytes after the last full word are zero. For a
given hash the same holds as long as it has no second preimage of the message. -/
theorem sha256Bytes_exact_iff_zeroTail (data : List UInt8) :
    ((∀ sha : HashFunction, sha256Bytes sha data = sha data) ↔ ZeroTail data) ∧
    ((∀ sha : HashFunction, doubleSha256 sha data = bitcoinHash sha data) ↔ ZeroTail data) ∧
    (∀ sha : HashFunction, SecondPreimageFree sha data →
      (sha256Bytes sha data = sha data ↔ ZeroTail data)) ∧
    (∀ sha : HashFunction, SecondPreimageFree (bitcoinHash sha) data →
      (doubleSha256 sha data = bitcoinHash sha data ↔ ZeroTail data)) := by
  refine ⟨⟨?_, ?_⟩, ⟨?_, ?_⟩, ?_, ?_⟩
  · intro exact_for_all
    by_contra tail
    obtain ⟨width, misread⟩ := misread_of_not_zeroTail tail
    exact (telling_ne width (hashedMessage_length data) misread).1 (exact_for_all (telling data))
  · intro zero sha
    exact sha256Bytes_of_zeroTail sha zero
  · intro exact_for_all
    by_contra tail
    obtain ⟨width, misread⟩ := misread_of_not_zeroTail tail
    have same := exact_for_all (telling data)
    rw [doubleSha256_eq] at same
    exact (telling_ne width (hashedMessage_length data) misread).2 same
  · intro zero sha
    exact doubleSha256_of_zeroTail sha zero
  · intro sha free
    refine ⟨fun same => ?_, sha256Bytes_of_zeroTail sha⟩
    exact (hashedMessage_eq_self data).mp (free _ (hashedMessage_length data) same)
  · intro sha free
    refine ⟨fun same => ?_, doubleSha256_of_zeroTail sha⟩
    rw [doubleSha256_eq] at same
    exact (hashedMessage_eq_self data).mp (free _ (hashedMessage_length data) same)

/-- A one-input payment to a taproot output with locktime 300000: 94 bytes. -/
def anchoredPayment : List UInt8 :=
  [2, 0, 0, 0, 1] ++ List.replicate 36 0x11 ++ [0, 0xfe, 0xff, 0xff, 0xff, 1] ++
    littleEndian 8 100000 ++ [0x22, 0x51, 0x20] ++ List.replicate 32 0xab ++ littleEndian 4 300000

/-- The last two bytes of the locktime are read as zero. -/
theorem anchoredPayment_misread :
    sha256Bytes sha256 anchoredPayment ≠ sha256 anchoredPayment ∧
      doubleSha256 sha256 anchoredPayment ≠ bitcoinHash sha256 anchoredPayment := by
  decide +kernel

end PrivateBtc.Contracts.Hashing
