/- PrivateBtc/Library/Words
   digest: Eight-word values and their thirty-two big-endian bytes. -/

import PrivateBtc.Library.Bytes

set_option autoImplicit false
set_option relaxedAutoImplicit false

namespace PrivateBtc.Library.Words

open Bytes

/-- Eight 32-bit words, most significant word first. -/
structure Words8 where
  w0 : UInt32
  w1 : UInt32
  w2 : UInt32
  w3 : UInt32
  w4 : UInt32
  w5 : UInt32
  w6 : UInt32
  w7 : UInt32
  deriving DecidableEq, Repr

/-- The four bytes of a word, most significant byte first. -/
def wordBytes (word : UInt32) : List UInt8 := bigEndian 4 word.toNat

/-- The word read from a byte list, most significant byte first. -/
def wordOfBytes (bytes : List UInt8) : UInt32 := UInt32.ofNat (fromBigEndian bytes)

/-- Consecutive words of a byte list, four bytes each; a shorter rest is dropped. -/
def wordsOfBytes : List UInt8 → List UInt32
  | b0 :: b1 :: b2 :: b3 :: rest => wordOfBytes [b0, b1, b2, b3] :: wordsOfBytes rest
  | _ => []

namespace Words8

def toList (d : Words8) : List UInt32 := [d.w0, d.w1, d.w2, d.w3, d.w4, d.w5, d.w6, d.w7]

/-- The thirty-two bytes of the eight words. -/
def bytes (d : Words8) : List UInt8 := d.toList.flatMap wordBytes

/-- The eight words of a list of words, with zero for a missing one. -/
def ofList (words : List UInt32) : Words8 :=
  ⟨words.getD 0 0, words.getD 1 0, words.getD 2 0, words.getD 3 0,
    words.getD 4 0, words.getD 5 0, words.getD 6 0, words.getD 7 0⟩

/-- The eight words of a list of thirty-two bytes. -/
def ofBytes (bytes : List UInt8) : Words8 := ofList (wordsOfBytes bytes)

@[simp] theorem ofList_toList (d : Words8) : ofList d.toList = d := rfl

end Words8

@[simp] theorem wordBytes_length (word : UInt32) : (wordBytes word).length = 4 := by
  simp [wordBytes]

theorem wordOfBytes_wordBytes (word : UInt32) : wordOfBytes (wordBytes word) = word := by
  apply UInt32.toNat_inj.mp
  have bound : word.toNat < 256 ^ 4 := word.toNat_lt
  rw [wordOfBytes, wordBytes, fromBigEndian_bigEndian, UInt32.toNat_ofNat',
    Nat.mod_eq_of_lt bound, Nat.mod_eq_of_lt word.toNat_lt]

theorem wordBytes_wordOfBytes {bytes : List UInt8} (width : bytes.length = 4) :
    wordBytes (wordOfBytes bytes) = bytes := by
  have bound := fromBigEndian_lt bytes
  rw [width] at bound
  rw [wordBytes, wordOfBytes, UInt32.toNat_ofNat', Nat.mod_eq_of_lt (by simpa using bound)]
  simpa only [width] using bigEndian_fromBigEndian bytes

theorem wordsOfBytes_append {word : List UInt8} (width : word.length = 4) (rest : List UInt8) :
    wordsOfBytes (word ++ rest) = wordOfBytes word :: wordsOfBytes rest := by
  match word, width with
  | [b0, b1, b2, b3], _ => rfl

/-- Reading back the bytes of a word list gives the words. -/
theorem wordsOfBytes_flatMap (words : List UInt32) :
    wordsOfBytes (words.flatMap wordBytes) = words := by
  induction words with
  | nil => rfl
  | cons word words ih =>
      rw [List.flatMap_cons, wordsOfBytes_append (wordBytes_length word), wordOfBytes_wordBytes, ih]

/-- Whole words cover a byte list whose length is a multiple of four. -/
theorem flatMap_wordsOfBytes (count : Nat) :
    ∀ bytes : List UInt8, bytes.length = 4 * count →
      (wordsOfBytes bytes).flatMap wordBytes = bytes ∧ (wordsOfBytes bytes).length = count := by
  induction count with
  | zero =>
      intro bytes width
      obtain rfl := List.eq_nil_of_length_eq_zero width
      exact ⟨rfl, rfl⟩
  | succ count ih =>
      intro bytes width
      match bytes, width with
      | b0 :: b1 :: b2 :: b3 :: rest, width =>
          have rest_width : rest.length = 4 * count := by
            simp only [List.length_cons] at width
            omega
          obtain ⟨cover, length⟩ := ih rest rest_width
          refine ⟨?_, by simp [wordsOfBytes, length]⟩
          rw [wordsOfBytes, List.flatMap_cons, wordBytes_wordOfBytes rfl, cover]
          rfl

namespace Words8

@[simp] theorem bytes_length (d : Words8) : d.bytes.length = 32 := by
  simp [bytes, toList]

@[simp] theorem ofBytes_bytes (d : Words8) : ofBytes d.bytes = d := by
  rw [ofBytes, bytes, wordsOfBytes_flatMap, ofList_toList]

theorem bytes_injective {d e : Words8} (same : d.bytes = e.bytes) : d = e := by
  rw [← ofBytes_bytes d, ← ofBytes_bytes e, same]

theorem toList_ofBytes {source : List UInt8} (width : source.length = 32) :
    (ofBytes source).toList = wordsOfBytes source := by
  obtain ⟨_, count⟩ := flatMap_wordsOfBytes 8 source width
  rw [ofBytes]
  match wordsOfBytes source, count with
  | [_, _, _, _, _, _, _, _], _ => rfl

theorem bytes_ofBytes {source : List UInt8} (width : source.length = 32) :
    (ofBytes source).bytes = source := by
  rw [bytes, toList_ofBytes width]
  exact (flatMap_wordsOfBytes 8 source width).1

/-- The bytes of two values, one after the other, determine both. -/
theorem bytes_append_injective {a b c d : Words8}
    (same : a.bytes ++ b.bytes = c.bytes ++ d.bytes) : a = c ∧ b = d := by
  have parts := List.append_inj same (by simp)
  exact ⟨bytes_injective parts.1, bytes_injective parts.2⟩

end Words8

end PrivateBtc.Library.Words
