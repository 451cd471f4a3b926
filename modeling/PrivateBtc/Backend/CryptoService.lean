/- PrivateBtc/Backend/CryptoService
   digest: Amount encryption and the Pedersen commitment and nullifier of the backend. -/

import PrivateBtc.Contracts.Corelib
import PrivateBtc.Library.Bytes
import PrivateBtc.Library.Double

set_option autoImplicit false
set_option relaxedAutoImplicit false

namespace PrivateBtc.Backend.CryptoService

open Library Library.JsText Library.Outcome
open Contracts.Corelib (Felt)

abbrev Iv := { bytes : List UInt8 // bytes.length = 12 }

abbrev AuthTag := { bytes : List UInt8 // bytes.length = 16 }

/-- What the service takes from Node and starknet.js: the key derived from a salt and
ENCRYPTION_KEY, AES-256-GCM, base64 and the Pedersen hash. -/
structure Crypto where
  hkdf : List UInt8 → List UInt8
  gcmEncrypt : List UInt8 → Iv → Text → AuthTag × List UInt8
  gcmDecrypt : List UInt8 → Iv → AuthTag → List UInt8 → Except String Text
  gcmDecrypt_gcmEncrypt : ∀ key iv plaintext,
    gcmDecrypt key iv (gcmEncrypt key iv plaintext).1 (gcmEncrypt key iv plaintext).2 = .ok plaintext
  toBase64 : List UInt8 → Text
  fromBase64 : Text → List UInt8
  fromBase64_toBase64 : ∀ bytes, fromBase64 (toBase64 bytes) = bytes
  pedersen : Felt → Felt → Felt

/-- What `crypto.randomBytes` and `uuidv4` give in one turn. -/
structure Random where
  uuid : Text
  salt : List UInt8
  randomness : List UInt8
  iv : Iv
  iv2 : Iv

def starkFieldPrime : Nat := 2 ^ 251 + 17 * 2 ^ 192 + 1

def generateSalt (random : Random) : Text := Hex.encode random.salt

def generateRandomness (random : Random) : Text :=
  let bigVal := Bytes.fromBigEndian random.randomness
  '0' :: 'x' :: padStart 62 '0' (Nat.toDigits 16 (bigVal % starkFieldPrime))

variable (crypto : Crypto)

def deriveKey (salt : Text) : List UInt8 := crypto.hkdf (Hex.decode salt)

/-- base64(iv[12] + authTag[16] + ciphertext) -/
def encryptText (iv : Iv) (plaintext salt : Text) : Text :=
  let (authTag, ciphertext) := crypto.gcmEncrypt (deriveKey crypto salt) iv plaintext
  crypto.toBase64 (iv.val ++ authTag.val ++ ciphertext)

def decryptText (encryptedBase64 salt : Text) : Except String Text :=
  let packed := crypto.fromBase64 encryptedBase64
  let iv := packed.take 12
  let authTag := (packed.drop 12).take 16
  if iv_length : iv.length = 12 then
    if tag_length : authTag.length = 16 then
      crypto.gcmDecrypt (deriveKey crypto salt) ⟨iv, iv_length⟩ ⟨authTag, tag_length⟩ (packed.drop 28)
    else .error "Invalid authentication tag length"
  else .error "Invalid initialization vector"

def encryptAmount (iv : Iv) (amountSats : Int) (salt : Text) : Text :=
  encryptText crypto iv (toText 10 amountSats) salt

def toBigInt (text : Text) : Except String Int :=
  match bigInt text with
  | some n => .ok n
  | none => .error s!"Cannot convert {String.ofList text} to a BigInt"

def decryptAmount (encryptedBase64 salt : Text) : Except String Int := do
  toBigInt (← decryptText crypto encryptedBase64 salt)

def encryptRandomness (iv : Iv) (randomness salt : Text) : Text :=
  encryptText crypto iv randomness salt

theorem felt_of_fits {value : Int} (fits : 0 ≤ value ∧ value.toNat < starkFieldPrime) :
    value.toNat < 2 ^ 251 + 17 * 2 ^ 192 + 1 := fits.2

def pedersenArg (text : Text) : Except String Felt := do
  let value ← toBigInt text
  if h : 0 ≤ value ∧ value.toNat < starkFieldPrime then pure ⟨value.toNat, felt_of_fits h⟩
  else throw "PedersenArg should be 0 <= value < CURVE.P"

def computePedersenHash (a b : Text) : Except String Text := do
  let x ← pedersenArg a
  let y ← pedersenArg b
  pure (hexText (crypto.pedersen x y).val)

def generateCommitment (amountBTC secret : Text) : Except String Text :=
  let amountSats := ((Double.parseFloat amountBTC).mul (.finite 100000000)).round.toText
  if Double.parsesInt amountSats then computePedersenHash crypto amountSats secret
  else .error s!"Invalid amount: {String.ofList amountBTC}"

def generateNullifier (commitmentHash secret : Text) : Except String Text :=
  computePedersenHash crypto commitmentHash secret

/-- The 32-byte buffers of two integer texts compared; a longer one throws. -/
def timingSafeEqual (expected claimed : Text) : Except String Bool := do
  let a := Hex.decode (padStart 64 '0' (toText 16 (← toBigInt expected)))
  let b := Hex.decode (padStart 64 '0' (toText 16 (← toBigInt claimed)))
  if a.length = b.length then pure (a == b)
  else throw "Input buffers must have the same byte length"

/-- The `catch` of both verifications answers false. -/
def orFalse : Except String Bool → Bool
  | .ok answer => answer
  | .error _ => false

def verifyCommitment (amount secret commitment : Text) : Bool :=
  orFalse (do timingSafeEqual (← generateCommitment crypto amount secret) commitment)

def verifyNullifier (commitmentHash secret nullifierHash : Text) : Bool :=
  orFalse (do timingSafeEqual (← generateNullifier crypto commitmentHash secret) nullifierHash)

/-- /^0x[0-9a-fA-F]{low,high}$/ -/
def isHex (low high : Nat) : Text → Bool
  | '0' :: 'x' :: digits =>
      low ≤ digits.length && digits.length ≤ high && digits.all fun c => (digitIn 16 c).isSome
  | _ => false

def isValidAddress (addr : Text) : Bool := isHex 63 66 addr

theorem decryptText_encryptText (iv : Iv) (plaintext salt : Text) :
    decryptText crypto (encryptText crypto iv plaintext salt) salt = .ok plaintext := by
  have iv_length := iv.property
  have tag_length := (crypto.gcmEncrypt (deriveKey crypto salt) iv plaintext).1.property
  have split_iv : (iv.val ++ (crypto.gcmEncrypt (deriveKey crypto salt) iv plaintext).1.val ++
      (crypto.gcmEncrypt (deriveKey crypto salt) iv plaintext).2).take 12 = iv.val := by
    rw [List.append_assoc, List.take_left' iv_length]
  have split_tag : ((iv.val ++ (crypto.gcmEncrypt (deriveKey crypto salt) iv plaintext).1.val ++
      (crypto.gcmEncrypt (deriveKey crypto salt) iv plaintext).2).drop 12).take 16 =
        (crypto.gcmEncrypt (deriveKey crypto salt) iv plaintext).1.val := by
    rw [List.append_assoc, List.drop_left' iv_length, List.take_left' tag_length]
  have split_rest : (iv.val ++ (crypto.gcmEncrypt (deriveKey crypto salt) iv plaintext).1.val ++
      (crypto.gcmEncrypt (deriveKey crypto salt) iv plaintext).2).drop 28 =
        (crypto.gcmEncrypt (deriveKey crypto salt) iv plaintext).2 :=
    List.drop_left' (by rw [List.length_append, iv_length, tag_length])
  simp only [decryptText, encryptText, crypto.fromBase64_toBase64, split_iv, split_tag, split_rest,
    iv_length, tag_length, dif_pos, Subtype.coe_eta]
  exact crypto.gcmDecrypt_gcmEncrypt _ iv plaintext

/-- A stored amount is read back. -/
theorem decryptAmount_encryptAmount (iv : Iv) (amount : Int) (salt : Text) :
    decryptAmount crypto (encryptAmount crypto iv amount salt) salt = .ok amount := by
  rw [decryptAmount, encryptAmount, decryptText_encryptText, ok_bind, toBigInt, bigInt_toText]

/-- An argument is taken exactly where its text stands for a felt. -/
theorem pedersenArg_ok {text : Text} {x : Felt} :
    pedersenArg text = .ok x ↔ bigInt text = some (x.val : Int) := by
  rw [pedersenArg, toBigInt]
  cases bigInt text with
  | none => simp
  | some n =>
      rw [ok_bind, Option.some.injEq]
      split_ifs with fits
      · constructor
        · rintro ⟨⟩
          exact (Int.toNat_of_nonneg fits.1).symm
        · rintro rfl
          rfl
      · constructor
        · intro thrown
          cases thrown
        · rintro rfl
          exact absurd ⟨by omega, x.isLt⟩ fits

/-- The hash that a felt's text stands for is read back. -/
theorem pedersenArg_hexText (x : Felt) : pedersenArg (hexText x.val) = .ok x :=
  pedersenArg_ok.mpr (bigInt_hexText x.val)

theorem computePedersenHash_ok {crypto : Crypto} {a b hash : Text} :
    computePedersenHash crypto a b = .ok hash ↔ ∃ x key, pedersenArg a = .ok x ∧
      pedersenArg b = .ok key ∧ hash = hexText (crypto.pedersen x key).val := by
  simp only [computePedersenHash, bind_eq_ok, pure_eq_ok, Except.ok.injEq]
  constructor
  · rintro ⟨x, left, key, right, rfl⟩
    exact ⟨x, key, left, right, rfl⟩
  · rintro ⟨x, key, left, right, rfl⟩
    exact ⟨x, left, key, right, rfl⟩

/-- Two hashes are compared as numbers. -/
theorem timingSafeEqual_hexText (x y : Felt) :
    timingSafeEqual (hexText x.val) (hexText y.val) = .ok (decide (x = y)) := by
  have spelled : ∀ z : Felt, Hex.decode (padStart 64 '0' (toText 16 (z.val : Int))) =
      Bytes.bigEndian 32 z.val := by
    intro z
    have fits : z.val < 256 ^ (31 + 1) := lt_trans z.isLt (by decide)
    show Hex.decode (padStart (2 * (31 + 1)) '0' (Nat.toDigits 16 z.val)) = _
    rw [← encode_bigEndian 31 z.val fits, Hex.decode_encode]
  have value : ∀ z : Felt, toBigInt (hexText z.val) = .ok (z.val : Int) := fun z => by
    rw [toBigInt, bigInt_hexText]
  have same : (Bytes.bigEndian 32 x.val == Bytes.bigEndian 32 y.val) = decide (x = y) := by
    rw [Bool.eq_iff_iff, beq_iff_eq, decide_eq_true_eq]
    constructor
    · intro bytes
      exact Fin.ext (Bytes.bigEndian_injective (lt_trans x.isLt (by decide))
        (lt_trans y.isLt (by decide)) bytes)
    · rintro rfl
      rfl
  simp only [timingSafeEqual, value, ok_bind, spelled, Bytes.bigEndian_length, if_true, same]
  rfl

section Plain

/-- A published input pair of the Pedersen hash and its value. -/
def plainLeft : Felt := 0x3d937c035c878245caf64531a5756109c53068da139362728feb561405371cb

def plainRight : Felt := 0x208a0a10250e382e1e4bbe2880906c2791bf6275695e02fbbc6aeff9cd8b31a

def plainHash : Felt := 0x30e480bed5fe53fa909cc0f8c4d99b8f9f2c016be4c41e13a4848797979c662

def spellChar (c : Char) : List UInt8 :=
  [UInt8.ofNat (c.toNat / 65536), UInt8.ofNat (c.toNat / 256), UInt8.ofNat c.toNat]

def readChars : List UInt8 → Text
  | high :: middle :: low :: rest =>
      Char.ofNat (65536 * high.toNat + 256 * middle.toNat + low.toNat) :: readChars rest
  | _ => []

theorem readChars_spell (text : Text) : readChars (text.flatMap spellChar) = text := by
  induction text with
  | nil => rfl
  | cons c rest ih =>
      have bound : c.toNat < 1114112 := by
        have valid := c.valid
        have value : c.toNat = c.val.toNat := rfl
        rcases valid with low | ⟨-, high⟩ <;> omega
      have value : 65536 * (UInt8.ofNat (c.toNat / 65536)).toNat +
          256 * (UInt8.ofNat (c.toNat / 256)).toNat + (UInt8.ofNat c.toNat).toNat = c.toNat := by
        simp only [UInt8.toNat_ofNat']
        omega
      rw [List.flatMap_cons, spellChar]
      simp only [List.cons_append, List.nil_append, readChars, ih, value, Char.ofNat_toNat]

/-- An instance for concrete runs: its cipher only spells the text, and its hash
knows the published pair. -/
def plainCrypto : Crypto where
  hkdf salt := salt
  gcmEncrypt _ _ plaintext := (⟨List.replicate 16 0, rfl⟩, plaintext.flatMap spellChar)
  gcmDecrypt _ _ _ ciphertext := .ok (readChars ciphertext)
  gcmDecrypt_gcmEncrypt _ _ plaintext := by rw [readChars_spell]
  toBase64 := Hex.encode
  fromBase64 := Hex.decode
  fromBase64_toBase64 := Hex.decode_encode
  pedersen x y := if x = plainLeft ∧ y = plainRight then plainHash else 0

end Plain

end PrivateBtc.Backend.CryptoService
