/- PrivateBtc/Library/Sha256
   digest: SHA-256 on byte lists as an executable function. -/

import PrivateBtc.Library.Words

set_option autoImplicit false
set_option relaxedAutoImplicit false

namespace PrivateBtc.Library.Sha256

open Bytes Words

def rotateRight (x n : UInt32) : UInt32 := (x >>> n) ||| (x <<< (32 - n))

def choose (x y z : UInt32) : UInt32 := (x &&& y) ^^^ (~~~x &&& z)

def majority (x y z : UInt32) : UInt32 := (x &&& y) ^^^ (x &&& z) ^^^ (y &&& z)

def bigSigma0 (x : UInt32) : UInt32 := rotateRight x 2 ^^^ rotateRight x 13 ^^^ rotateRight x 22

def bigSigma1 (x : UInt32) : UInt32 := rotateRight x 6 ^^^ rotateRight x 11 ^^^ rotateRight x 25

def smallSigma0 (x : UInt32) : UInt32 := rotateRight x 7 ^^^ rotateRight x 18 ^^^ (x >>> 3)

def smallSigma1 (x : UInt32) : UInt32 := rotateRight x 17 ^^^ rotateRight x 19 ^^^ (x >>> 10)

def roundConstants : List UInt32 := [
  0x428a2f98, 0x71374491, 0xb5c0fbcf, 0xe9b5dba5, 0x3956c25b, 0x59f111f1, 0x923f82a4, 0xab1c5ed5,
  0xd807aa98, 0x12835b01, 0x243185be, 0x550c7dc3, 0x72be5d74, 0x80deb1fe, 0x9bdc06a7, 0xc19bf174,
  0xe49b69c1, 0xefbe4786, 0x0fc19dc6, 0x240ca1cc, 0x2de92c6f, 0x4a7484aa, 0x5cb0a9dc, 0x76f988da,
  0x983e5152, 0xa831c66d, 0xb00327c8, 0xbf597fc7, 0xc6e00bf3, 0xd5a79147, 0x06ca6351, 0x14292967,
  0x27b70a85, 0x2e1b2138, 0x4d2c6dfc, 0x53380d13, 0x650a7354, 0x766a0abb, 0x81c2c92e, 0x92722c85,
  0xa2bfe8a1, 0xa81a664b, 0xc24b8b70, 0xc76c51a3, 0xd192e819, 0xd6990624, 0xf40e3585, 0x106aa070,
  0x19a4c116, 0x1e376c08, 0x2748774c, 0x34b0bcb5, 0x391c0cb3, 0x4ed8aa4a, 0x5b9cca4f, 0x682e6ff3,
  0x748f82ee, 0x78a5636f, 0x84c87814, 0x8cc70208, 0x90befffa, 0xa4506ceb, 0xbef9a3f7, 0xc67178f2]

def initialState : Words8 :=
  ⟨0x6a09e667, 0xbb67ae85, 0x3c6ef372, 0xa54ff53a, 0x510e527f, 0x9b05688c, 0x1f83d9ab, 0x5be0cd19⟩

/-- The message, a one bit, zeros up to a block boundary and the bit length. -/
def pad (message : List UInt8) : List UInt8 :=
  message ++ 0x80 :: List.replicate ((119 - message.length % 64) % 64) 0 ++
    bigEndian 8 (8 * message.length)

/-- One more schedule word; the words computed so far stand newest first. -/
def extend (newestFirst : List UInt32) : List UInt32 :=
  (smallSigma1 (newestFirst.getD 1 0) + newestFirst.getD 6 0 +
    smallSigma0 (newestFirst.getD 14 0) + newestFirst.getD 15 0) :: newestFirst

def schedule (block : List UInt8) : List UInt32 :=
  ((List.range 48).foldl (fun words _ => extend words) (wordsOfBytes block).reverse).reverse

def round (s : Words8) (input : UInt32 × UInt32) : Words8 :=
  let t1 := s.w7 + bigSigma1 s.w4 + choose s.w4 s.w5 s.w6 + input.1 + input.2
  let t2 := bigSigma0 s.w0 + majority s.w0 s.w1 s.w2
  ⟨t1 + t2, s.w0, s.w1, s.w2, s.w3 + t1, s.w4, s.w5, s.w6⟩

def compress (s : Words8) (block : List UInt8) : Words8 :=
  let r := (roundConstants.zip (schedule block)).foldl round s
  ⟨s.w0 + r.w0, s.w1 + r.w1, s.w2 + r.w2, s.w3 + r.w3,
    s.w4 + r.w4, s.w5 + r.w5, s.w6 + r.w6, s.w7 + r.w7⟩

/-- SHA-256 of a message. -/
def sha256 (message : List UInt8) : Words8 :=
  let padded := pad message
  (List.range (padded.length / 64)).foldl
    (fun s i => compress s ((padded.drop (64 * i)).take 64)) initialState

example : sha256 [0x61, 0x62, 0x63] =
    ⟨0xba7816bf, 0x8f01cfea, 0x414140de, 0x5dae2223, 0xb00361a3, 0x96177a9c, 0xb410ff61,
      0xf20015ad⟩ := by decide +kernel

end PrivateBtc.Library.Sha256
