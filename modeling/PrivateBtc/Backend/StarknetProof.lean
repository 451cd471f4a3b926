/- PrivateBtc/Backend/StarknetProof
   digest: The 112 bytes of a burn proof, and which recipients they tell apart. -/

import PrivateBtc.Library.Bech32
import PrivateBtc.Library.Cursor
import PrivateBtc.Library.JsText
import PrivateBtc.Library.Sha256

set_option autoImplicit false
set_option relaxedAutoImplicit false

namespace PrivateBtc.Backend.StarknetProof

open Library Library.Bytes Library.Cursor Library.JsText

/-- A bigint, or its text where the proof was read back from the cache. -/
inductive Quantity where
  | bigint (value : Int)
  | string (text : Text)
  deriving DecidableEq, Repr

def Quantity.toBigInt : Quantity → Except String Int
  | .bigint value => .ok value
  | .string text =>
      match bigInt text with
      | some value => .ok value
      | none => .error s!"SyntaxError: Cannot convert {String.ofList text} to a BigInt"

/-- `Omit<StarknetBurnProof, 'signature' | 'timestamp'>`. -/
structure ProofData where
  txHash : Text
  amount : Quantity
  nullifier : Text
  recipientBtc : Text
  blockNumber : Quantity
  deriving DecidableEq, Repr

structure StarknetBurnProof extends ProofData where
  signature : Text
  deriving DecidableEq, Repr

structure SerializedProof where
  buffer : List UInt8
  chunks : List (List UInt8)
  deriving DecidableEq, Repr

abbrev Scalar := { n : Nat // n < 2 ^ 256 }

/-- What the service takes from Node and elliptic; `verify` reads the public key too. -/
structure Crypto where
  sha256 : List UInt8 → List UInt8
  sign : Text → List UInt8 → Scalar × Scalar
  verify : Text → List UInt8 → List UInt8 → List UInt8 → Except String Bool

/-- The two environment variables; one that is not set reads as the empty text. -/
structure Keys where
  SEQUENCER_PRIVATE_KEY : Text
  SEQUENCER_PUBLIC_KEY : Text

/-- `bytes.copy(buffer, offset)`: what would pass the end of the buffer is not written. -/
def copy (bytes buffer : List UInt8) (offset : Nat) : List UInt8 :=
  buffer.take offset ++ bytes.take (buffer.length - offset) ++ buffer.drop (offset + bytes.length)

def writeBigUInt64LE (buffer : List UInt8) (value : Int) (offset : Nat) :
    Except String (List UInt8) :=
  if 0 ≤ value ∧ value < 2 ^ 64 then .ok (copy (littleEndian 8 value.toNat) buffer offset)
  else .error "ERR_OUT_OF_RANGE"

def decodeBech32 (address : Text) : Except String (List UInt8) :=
  .ok ((Hex.decode (address.drop 4)).take 20)

def addressToScriptHash (crypto : Crypto) (address : Text) : List UInt8 :=
  match decodeBech32 address with
  | .ok decoded => decoded.take 20
  | .error _ => (crypto.sha256 (String.ofList address).toUTF8.data.toList).take 20

def splitIntoChunks (buffer : List UInt8) (chunkSize : Nat) : List (List UInt8) :=
  (List.range ((buffer.length + chunkSize - 1) / chunkSize)).map fun i =>
    slice buffer (i * chunkSize) (min (i * chunkSize + chunkSize) buffer.length)

def hashBytes (text : Text) : List UInt8 := Hex.decode (padStart 64 '0' (dropFirst0x text))

def serializeProofData (crypto : Crypto) (proof : ProofData) : Except String SerializedProof := do
  let buffer := List.replicate 112 0
  let offset := 0
  let buffer := copy (hashBytes proof.txHash) buffer offset
  let offset := offset + 32
  let amountBigInt ← proof.amount.toBigInt
  let buffer ← writeBigUInt64LE buffer amountBigInt offset
  let offset := offset + 8
  let buffer := copy (hashBytes proof.nullifier) buffer offset
  let offset := offset + 32
  let buffer := copy (addressToScriptHash crypto proof.recipientBtc) buffer offset
  let offset := offset + 20
  let blockNumberBigInt ← proof.blockNumber.toBigInt
  let buffer ← writeBigUInt64LE buffer blockNumberBigInt offset
  pure ⟨buffer, splitIntoChunks buffer 420⟩

def signProof (crypto : Crypto) (keys : Keys) (proofData : List UInt8) : Except String Text :=
  if keys.SEQUENCER_PRIVATE_KEY = [] then
    .error "SEQUENCER_SIGNING_KEY not configured"
  else
    let hash := crypto.sha256 proofData
    let signature := crypto.sign keys.SEQUENCER_PRIVATE_KEY hash
    .ok (Hex.encode (bigEndian 32 signature.1 ++ bigEndian 32 signature.2))

def verifyProof (crypto : Crypto) (keys : Keys) (proof : StarknetBurnProof) : Bool :=
  let verified : Except String Bool := do
    let serialized ← serializeProofData crypto proof.toProofData
    let hash := crypto.sha256 serialized.buffer
    if keys.SEQUENCER_PUBLIC_KEY = [] then
      pure true
    else
      let r := Hex.decode (slice proof.signature 0 64)
      let s := Hex.decode (slice proof.signature 64 128)
      crypto.verify keys.SEQUENCER_PUBLIC_KEY hash r s
  match verified with
  | .ok verdict => verdict
  | .error _ => false

/-- The number that a text in `0x` hex stands for. -/
def numberOf : Text → Option Nat
  | '0' :: 'x' :: digits => readLiteral 16 digits
  | _ => none

/-- A hash of 32 bytes at most in hex, below 2^252. -/
def IsHash (text : Text) : Prop :=
  text.length ≤ 66 ∧ ∃ value < 2 ^ 252, numberOf text = some value

def IsUInt64 (quantity : Quantity) : Prop :=
  ∃ value : Int, 0 ≤ value ∧ value < 2 ^ 64 ∧ quantity.toBigInt = .ok value

/-- A witness program of 160 bits under version zero. -/
def IsP2wpkh (address : Text) : Prop :=
  ∃ program : List Bech32.Quintet,
    program.length = 32 ∧ Bech32.Spells ['t', 'b'] (Bech32.version0 program) address

structure Valid (proof : ProofData) : Prop where
  txHash : IsHash proof.txHash
  amount : IsUInt64 proof.amount
  nullifier : IsHash proof.nullifier
  recipientBtc : IsP2wpkh proof.recipientBtc
  blockNumber : IsUInt64 proof.blockNumber

/-- Both proofs say the same, whatever the spelling of their numbers. -/
structure Same (a b : ProofData) : Prop where
  txHash : numberOf a.txHash = numberOf b.txHash
  amount : a.amount.toBigInt = b.amount.toBigInt
  nullifier : numberOf a.nullifier = numberOf b.nullifier
  recipientBtc : a.recipientBtc = b.recipientBtc
  blockNumber : a.blockNumber.toBigInt = b.blockNumber.toBigInt

/-- After `tb1q` stand hex digits, up to a pair other than `00` that is the sixteenth or later. -/
def Distinctive (address : Text) : Prop :=
  ∃ k ≥ 15, (∀ c ∈ (address.drop 4).take (2 * k + 2), (Hex.digitValue c).isSome = true) ∧
    ∃ high low, (address.drop 4)[2 * k]? = some high ∧ (address.drop 4)[2 * k + 1]? = some low ∧
      ¬ (high = '0' ∧ low = '0')

section Recipients

/-- What follows `tb1q` in the address of a program. -/
def lettersOf (program : List Bech32.Quintet) : Text :=
  (program ++ Bech32.createChecksum
    (Bech32.hrpExpand ['t', 'b'] ++ Bech32.version0 program)).map Bech32.letter

theorem isP2wpkh_iff {address : Text} :
    IsP2wpkh address ↔ ∃ program : List Bech32.Quintet,
      program.length = 32 ∧ address = ['t', 'b', '1', 'q'] ++ lettersOf program := by
  constructor
  · rintro ⟨program, length, spells⟩
    exact ⟨program, length, Bech32.spells_iff.mp spells⟩
  · rintro ⟨program, length, rfl⟩
    exact ⟨program, length, Bech32.spells_iff.mpr rfl⟩

theorem lettersOf_length {program : List Bech32.Quintet} (length : program.length = 32) :
    (lettersOf program).length = 38 := by
  rw [lettersOf, List.length_map, List.length_append, length, Bech32.createChecksum,
    Bech32.quintets_length]

theorem IsP2wpkh.decode_length {address : Text} (p2wpkh : IsP2wpkh address) :
    (Hex.decode (address.drop 4)).length ≤ 20 := by
  obtain ⟨program, length, rfl⟩ := isP2wpkh_iff.mp p2wpkh
  have bound := Hex.decode_length_le (lettersOf program)
  rw [lettersOf_length length] at bound
  show (Hex.decode (lettersOf program)).length ≤ 20
  omega

theorem lettersOf_take {program : List Bech32.Quintet} {n : Nat} (inside : n ≤ program.length) :
    (lettersOf program).take n = (program.take n).map Bech32.letter := by
  rw [lettersOf, ← List.map_take, List.take_append_of_le_length inside]

theorem lettersOf_injective {program program' : List Bech32.Quintet}
    (length : program.length = program'.length) (same : lettersOf program = lettersOf program') :
    program = program' := by
  have both := List.map_injective_iff.mpr Bech32.letter_injective same
  exact (List.append_inj both length).1

/-- No two letters stand for the same hex digit. -/
theorem letter_digit {a b : Bech32.Quintet} {digit : Nat}
    (left : Hex.digitValue (Bech32.letter a) = some digit)
    (right : Hex.digitValue (Bech32.letter b) = some digit) : a = b := by
  have each : ∀ a b : Bech32.Quintet, (Hex.digitValue (Bech32.letter a)).isSome = true →
      Hex.digitValue (Bech32.letter a) = Hex.digitValue (Bech32.letter b) → a = b := by decide
  exact each a b (by rw [left]; rfl) (left.trans right.symm)

/-- Two letters that spell a byte, and what the text spells after them. -/
theorem letters_cons {values : List Bech32.Quintet} {b : UInt8} {bytes : List UInt8}
    (writes : Hex.Writes (values.map Bech32.letter) (b :: bytes)) :
    ∃ high low rest, values = high :: low :: rest ∧
      Hex.byteOf (Bech32.letter high) (Bech32.letter low) = some b ∧
        Hex.Writes (rest.map Bech32.letter) bytes := by
  obtain ⟨read, length⟩ := writes
  match values with
  | [] => simp at length
  | [_] =>
      simp only [List.length_map, List.length_cons, List.length_nil] at length
      omega
  | high :: low :: rest =>
      simp only [List.map_cons, List.length_cons, List.length_map, Hex.decode] at read length
      cases byte : Hex.byteOf (Bech32.letter high) (Bech32.letter low) with
      | none => simp [byte] at read
      | some first =>
          simp only [byte, List.cons.injEq] at read
          refine ⟨high, low, rest, rfl, ?_, read.2, ?_⟩
          · rw [byte, read.1]
          · rw [List.length_map]
            omega

/-- Letters that are hex digits throughout are told by the bytes they spell. -/
theorem letters_writes {values values' : List Bech32.Quintet} {bytes : List UInt8}
    (writes : Hex.Writes (values.map Bech32.letter) bytes)
    (writes' : Hex.Writes (values'.map Bech32.letter) bytes) : values = values' := by
  induction bytes generalizing values values' with
  | nil =>
      have empty := writes.2
      have empty' := writes'.2
      simp only [List.length_map, List.length_nil, Nat.mul_zero, List.length_eq_zero_iff]
        at empty empty'
      rw [empty, empty']
  | cons b bytes ih =>
      obtain ⟨high, low, rest, rfl, byte, writes⟩ := letters_cons writes
      obtain ⟨high', low', rest', rfl, byte', writes'⟩ := letters_cons writes'
      have digits := Hex.digitValue_of_byteOf byte
      have digits' := Hex.digitValue_of_byteOf byte'
      rw [letter_digit digits.1 digits'.1, letter_digit digits.2 digits'.2, ih writes writes']

theorem distinctive_iff {address : Text} :
    Distinctive address ↔
      ∃ k ≥ 15, ∃ b, (Hex.decode (address.drop 4))[k]? = some b ∧ b ≠ 0 := by
  generalize text_eq : address.drop 4 = text
  have pairs : ∀ k high low, text[2 * k]? = some high → text[2 * k + 1]? = some low →
      text.take (2 * k + 2) = text.take (2 * k) ++ [high, low] := by
    intro k high low at_high at_low
    rw [List.take_add_one, List.take_add_one, at_high, at_low]
    simp
  rw [Distinctive, text_eq]
  constructor
  · rintro ⟨k, late, digits, high, low, at_high, at_low, nonzero⟩
    rw [pairs k high low at_high at_low] at digits
    obtain ⟨b, byte, b_nonzero⟩ := Hex.byteOf_nonzero.mpr
      ⟨digits high (by simp), digits low (by simp), nonzero⟩
    refine ⟨k, late, b, (Hex.decode_getElem? text k b).mpr ⟨?_, high, low, at_high, at_low, byte⟩,
      b_nonzero⟩
    exact fun c member => digits c (List.mem_append_left _ member)
  · rintro ⟨k, late, b, read, nonzero⟩
    obtain ⟨digits, high, low, at_high, at_low, byte⟩ := (Hex.decode_getElem? text k b).mp read
    obtain ⟨high_digit, low_digit, zero⟩ := Hex.byteOf_nonzero.mp ⟨b, byte, nonzero⟩
    refine ⟨k, late, ?_, high, low, at_high, at_low, zero⟩
    intro c member
    rw [pairs k high low at_high at_low] at member
    simp only [List.mem_append, List.mem_cons, List.not_mem_nil, or_false] at member
    rcases member with member | rfl | rfl
    · exact digits c member
    · exact high_digit
    · exact low_digit

def padded (read : List UInt8) : List UInt8 := read ++ List.replicate (20 - read.length) 0

/-- What stands for the recipient: the bytes that could be read, and zeros. -/
def recipientBytes (address : Text) : List UInt8 := padded (Hex.decode (address.drop 4))

theorem recipientBytes_tb1q (letters : Text) :
    recipientBytes (['t', 'b', '1', 'q'] ++ letters) = padded (Hex.decode letters) := rfl

theorem decode_of_recipientBytes {address : Text} {k : Nat} {b : UInt8}
    (stands : (recipientBytes address)[k]? = some b) (nonzero : b ≠ 0) :
    (Hex.decode (address.drop 4))[k]? = some b := by
  rcases Nat.lt_or_ge k (Hex.decode (address.drop 4)).length with inside | outside
  · rwa [recipientBytes, padded, List.getElem?_append_left inside] at stands
  · rw [recipientBytes, padded, List.getElem?_append_right outside] at stands
    exact absurd (List.eq_of_mem_replicate (List.mem_of_getElem? stands)) nonzero

/-- Sixteen bytes read are the whole program. -/
theorem program_writes {program : List Bech32.Quintet} (length : program.length = 32)
    (long : 16 ≤ (Hex.decode (lettersOf program)).length) :
    Hex.Writes (program.map Bech32.letter) ((Hex.decode (lettersOf program)).take 16) := by
  have whole : (lettersOf program).take (2 * 16) = program.map Bech32.letter := by
    rw [lettersOf_take (by omega), List.take_of_length_le (by omega)]
  rw [← whole, ← Hex.decode_take]
  constructor
  · rfl
  · rw [Hex.decode_take, List.length_take, List.length_take, lettersOf_length length]
    omega

theorem Distinctive.told {address other : Text} (distinctive : Distinctive address)
    (p2wpkh : IsP2wpkh address) (p2wpkh' : IsP2wpkh other)
    (same : recipientBytes other = recipientBytes address) : other = address := by
  obtain ⟨program, length, rfl⟩ := isP2wpkh_iff.mp p2wpkh
  obtain ⟨program', length', rfl⟩ := isP2wpkh_iff.mp p2wpkh'
  obtain ⟨k, late, b, read, nonzero⟩ := distinctive_iff.mp distinctive
  have inside := (List.getElem?_eq_some_iff.mp read).1
  have stands : (recipientBytes (['t', 'b', '1', 'q'] ++ lettersOf program))[k]? = some b := by
    rw [recipientBytes, padded, List.getElem?_append_left inside, read]
  have read' := decode_of_recipientBytes (same ▸ stands) nonzero
  have inside' := (List.getElem?_eq_some_iff.mp read').1
  have long : 16 ≤ (Hex.decode (lettersOf program)).length := Nat.le_trans (by omega) inside
  have long' : 16 ≤ (Hex.decode (lettersOf program')).length := Nat.le_trans (by omega) inside'
  have heads : (Hex.decode (lettersOf program')).take 16 =
      (Hex.decode (lettersOf program)).take 16 := by
    have first := congrArg (List.take 16) same
    rw [recipientBytes_tb1q, recipientBytes_tb1q, padded, padded,
      List.take_append_of_le_length long', List.take_append_of_le_length long] at first
    exact first
  have writes := program_writes length long
  have writes' := program_writes length' long'
  rw [heads] at writes'
  rw [letters_writes writes' writes]

theorem padded_take {read : List UInt8} {n : Nat} (short : read.length ≤ 20)
    (zeros : ∀ k ≥ n, ∀ b, read[k]? = some b → b = 0) : padded (read.take n) = padded read := by
  have rest : read.drop n = List.replicate (read.length - n) 0 := by
    apply List.eq_replicate_iff.mpr
    refine ⟨List.length_drop, ?_⟩
    intro b member
    obtain ⟨i, at_i⟩ := List.mem_iff_getElem?.mp member
    rw [List.getElem?_drop] at at_i
    exact zeros (n + i) (Nat.le_add_right n i) b at_i
  have sum : 20 - (read.take n).length = read.length - n + (20 - read.length) := by
    rw [List.length_take]
    omega
  rw [padded, padded, sum, ← List.replicate_append_replicate, ← rest, ← List.append_assoc,
    List.take_append_drop]

/-- The letters `q` and `p` are no hex digits, so reading stops at them. -/
theorem decode_stops {c : Bech32.Quintet} (low : c = 0 ∨ c = 1) (rest : Text) :
    Hex.decode (Bech32.letter c :: Bech32.letter c :: rest) = [] := by
  rcases low with rfl | rfl
  · rfl
  · rfl

/-- A program that differs in the first pair of letters not read as a byte, or else in the
sixteenth. -/
theorem exists_twin {address : Text} (p2wpkh : IsP2wpkh address) (plain : ¬ Distinctive address) :
    ∃ other, IsP2wpkh other ∧ recipientBytes other = recipientBytes address ∧ other ≠ address := by
  obtain ⟨program, length, rfl⟩ := isP2wpkh_iff.mp p2wpkh
  have short := p2wpkh.decode_length
  rw [distinctive_iff] at plain
  generalize read_eq : Hex.decode (lettersOf program) = read
  have short : read.length ≤ 20 := read_eq ▸ short
  have zeros : ∀ k ≥ 15, ∀ b, read[k]? = some b → b = 0 := by
    intro k late b stands
    by_contra nonzero
    exact plain ⟨k, late, b, read_eq ▸ stands, nonzero⟩
  obtain ⟨j, j_le, j_read, j_zeros⟩ : ∃ j ≤ 15, j ≤ read.length ∧
      ∀ k ≥ j, ∀ b, read[k]? = some b → b = 0 := by
    rcases Nat.le_total 15 read.length with long | ended
    · exact ⟨15, Nat.le_refl 15, long, zeros⟩
    · refine ⟨read.length, ended, Nat.le_refl _, ?_⟩
      intro k past b stands
      exact absurd (List.getElem?_eq_some_iff.mp stands).1 (Nat.not_lt.mpr past)
  obtain ⟨c, low, differs⟩ : ∃ c : Bech32.Quintet, (c = 0 ∨ c = 1) ∧ program[2 * j]? ≠ some c := by
    by_cases zero : program[2 * j]? = some 0
    · exact ⟨1, Or.inr rfl, by simp [zero]⟩
    · exact ⟨0, Or.inl rfl, zero⟩
  have kept : (program.take (2 * j)).length = 2 * j := by
    rw [List.length_take]
    omega
  have length' : (program.take (2 * j) ++ c :: c :: program.drop (2 * j + 2)).length = 32 := by
    simp only [List.length_append, List.length_cons, List.length_drop, kept]
    omega
  have writes : Hex.Writes ((program.take (2 * j)).map Bech32.letter) (read.take j) := by
    rw [← lettersOf_take (by omega), ← read_eq, ← Hex.decode_take]
    constructor
    · rfl
    · rw [Hex.decode_take, List.length_take, List.length_take, lettersOf_length length, read_eq]
      omega
  have read' : Hex.decode (lettersOf (program.take (2 * j) ++ c :: c :: program.drop (2 * j + 2))) =
      read.take j := by
    rw [lettersOf, List.append_assoc, List.map_append, writes.decode_append, List.cons_append,
      List.cons_append, List.map_cons, List.map_cons, decode_stops low, List.append_nil]
  refine ⟨_, isP2wpkh_iff.mpr ⟨_, length', rfl⟩, ?_, ?_⟩
  · rw [recipientBytes_tb1q, recipientBytes_tb1q, read', read_eq, padded_take short j_zeros]
  · intro same
    have letters := List.append_cancel_left same
    have programs := lettersOf_injective (length'.trans length.symm) letters
    apply differs
    rw [← programs, List.getElem?_append_right (Nat.le_of_eq kept), kept, Nat.sub_self]
    rfl

end Recipients

section Layout

theorem copy_first {middle bytes : List UInt8} (right : List UInt8)
    (width : bytes.length = middle.length) : copy bytes (middle ++ right) 0 = bytes ++ right := by
  have room : bytes.length ≤ (middle ++ right).length - 0 := by
    simp only [List.length_append]
    omega
  rw [copy, List.take_zero, List.nil_append, List.take_of_length_le room, Nat.zero_add,
    List.drop_left' width.symm]

theorem copy_past {left right bytes : List UInt8} {offset place : Nat}
    (sum : offset = left.length + place) :
    copy bytes (left ++ right) offset = left ++ copy bytes right place := by
  have room : (left ++ right).length - offset = right.length - place := by
    rw [List.length_append]
    omega
  have behind : (left ++ right).drop (offset + bytes.length) =
      right.drop (place + bytes.length) := by
    rw [sum, Nat.add_assoc, ← List.drop_drop, List.drop_left]
  rw [copy, copy, room, behind, sum, List.take_length_add_append, List.append_assoc,
    List.append_assoc, List.append_assoc]

theorem hashBytes_eq {text : Text} {value : Nat} (short : text.length ≤ 66)
    (number : numberOf text = some value) : hashBytes text = bigEndian 32 value := by
  unfold numberOf at number
  split at number
  · next digits =>
      simp only [List.length_cons] at short
      have fits : digits.length ≤ 2 * 32 := by omega
      rw [hashBytes, dropFirst0x]
      exact decode_padStart fits number
  · cases number

/-- The numbers that a proof carries besides its recipient. -/
structure Carries (proof : ProofData) (tx sats spent block : Nat) : Prop where
  txHash : numberOf proof.txHash = some tx
  amount : proof.amount.toBigInt = .ok (sats : Int)
  nullifier : numberOf proof.nullifier = some spent
  blockNumber : proof.blockNumber.toBigInt = .ok (block : Int)
  tx_lt : tx < 256 ^ 32
  sats_lt : sats < 256 ^ 8
  spent_lt : spent < 256 ^ 32
  block_lt : block < 256 ^ 8

theorem Valid.carries {proof : ProofData} (valid : Valid proof) :
    ∃ tx sats spent block, Carries proof tx sats spent block := by
  obtain ⟨-, tx, tx_lt, tx_eq⟩ := valid.txHash
  obtain ⟨-, spent, spent_lt, spent_eq⟩ := valid.nullifier
  obtain ⟨sats, sats_nonneg, sats_lt, sats_eq⟩ := valid.amount
  obtain ⟨block, block_nonneg, block_lt, block_eq⟩ := valid.blockNumber
  refine ⟨tx, sats.toNat, spent, block.toNat, tx_eq, ?_, spent_eq, ?_, by omega, by omega,
    by omega, by omega⟩
  · rw [Int.toNat_of_nonneg sats_nonneg, sats_eq]
  · rw [Int.toNat_of_nonneg block_nonneg, block_eq]

theorem recipientBytes_length {address : Text} (p2wpkh : IsP2wpkh address) :
    (recipientBytes address).length = 20 := by
  have short := p2wpkh.decode_length
  rw [recipientBytes, padded, List.length_append, List.length_replicate]
  omega

theorem writeBigUInt64LE_eq {value : Nat} (fits : value < 256 ^ 8) (buffer : List UInt8)
    (offset : Nat) : writeBigUInt64LE buffer value offset =
      .ok (copy (littleEndian 8 value) buffer offset) := by
  rw [writeBigUInt64LE, if_pos (by omega), Int.toNat_natCast]

theorem addressToScriptHash_eq (crypto : Crypto) {address : Text} (p2wpkh : IsP2wpkh address) :
    addressToScriptHash crypto address = Hex.decode (address.drop 4) := by
  have short := p2wpkh.decode_length
  rw [addressToScriptHash, decodeBech32]
  simp only
  rw [List.take_take, List.take_of_length_le (by simpa using short)]

/-- Five pieces copied one after the other into a blank buffer. -/
theorem copied_eq {tx sats spent recipient block : List UInt8} (tx_length : tx.length = 32)
    (sats_length : sats.length = 8) (spent_length : spent.length = 32)
    (short : recipient.length ≤ 20) (block_length : block.length = 8) :
    copy block (copy recipient (copy spent (copy sats (copy tx (List.replicate 112 0) 0) 32) 40) 72)
        92 =
      tx ++ (sats ++ (spent ++ (recipient ++ (List.replicate (20 - recipient.length) 0 ++
        (block ++ List.replicate 12 0))))) := by
  have sum : 112 = 32 + (8 + (32 + (recipient.length + (20 - recipient.length + (8 + 12))))) := by
    omega
  have blank : List.replicate 112 (0 : UInt8) =
      List.replicate 32 0 ++ (List.replicate 8 0 ++ (List.replicate 32 0 ++
        (List.replicate recipient.length 0 ++ (List.replicate (20 - recipient.length) 0 ++
          (List.replicate 8 0 ++ List.replicate 12 0))))) := by
    simp only [List.replicate_append_replicate]
    exact congrArg (fun n => List.replicate n (0 : UInt8)) sum
  have atAmount : ∀ rest, copy sats (tx ++ (List.replicate 8 0 ++ rest)) 32 =
      tx ++ (sats ++ rest) := by
    intro rest
    rw [copy_past (show 32 = tx.length + 0 by omega), copy_first _ (by simp [sats_length])]
  have atNullifier : ∀ rest, copy spent (tx ++ (sats ++ (List.replicate 32 0 ++ rest))) 40 =
      tx ++ (sats ++ (spent ++ rest)) := by
    intro rest
    rw [copy_past (show 40 = tx.length + 8 by omega), copy_past (show 8 = sats.length + 0 by omega),
      copy_first _ (by simp [spent_length])]
  have atRecipient : ∀ rest, copy recipient (tx ++ (sats ++ (spent ++
      (List.replicate recipient.length 0 ++ rest)))) 72 =
        tx ++ (sats ++ (spent ++ (recipient ++ rest))) := by
    intro rest
    rw [copy_past (show 72 = tx.length + 40 by omega),
      copy_past (show 40 = sats.length + 32 by omega),
      copy_past (show 32 = spent.length + 0 by omega), copy_first _ (by simp)]
  have atBlock : ∀ zeros rest, zeros.length = 20 - recipient.length →
      copy block (tx ++ (sats ++ (spent ++ (recipient ++ (zeros ++
        (List.replicate 8 0 ++ rest)))))) 92 =
          tx ++ (sats ++ (spent ++ (recipient ++ (zeros ++ (block ++ rest))))) := by
    intro zeros rest zeros_length
    rw [copy_past (show 92 = tx.length + 60 by omega),
      copy_past (show 60 = sats.length + 52 by omega),
      copy_past (show 52 = spent.length + 20 by omega),
      copy_past (show 20 = recipient.length + (20 - recipient.length) by omega),
      copy_past (show 20 - recipient.length = zeros.length + 0 by omega),
      copy_first _ (by simp [block_length])]
  rw [blank, copy_first _ (by simp [tx_length]), atAmount, atNullifier, atRecipient, atBlock]
  exact List.length_replicate

def layout (tx sats spent : Nat) (recipient : List UInt8) (block : Nat) : List UInt8 :=
  bigEndian 32 tx ++ (littleEndian 8 sats ++ (bigEndian 32 spent ++
    (recipient ++ (littleEndian 8 block ++ List.replicate 12 0))))

theorem serializeProofData_ok (crypto : Crypto) {proof : ProofData} {amountBigInt : Int}
    {blockNumberBigInt : Int} {buffer buffer' : List UInt8}
    (amount : proof.amount.toBigInt = .ok amountBigInt)
    (amountWritten : writeBigUInt64LE (copy (hashBytes proof.txHash) (List.replicate 112 0) 0)
      amountBigInt 32 = .ok buffer)
    (blockNumber : proof.blockNumber.toBigInt = .ok blockNumberBigInt)
    (blockWritten : writeBigUInt64LE (copy (addressToScriptHash crypto proof.recipientBtc)
      (copy (hashBytes proof.nullifier) buffer 40) 72) blockNumberBigInt 92 = .ok buffer') :
    serializeProofData crypto proof = .ok ⟨buffer', splitIntoChunks buffer' 420⟩ := by
  simp only [serializeProofData, amount, blockNumber, amountWritten, blockWritten, bind, pure,
    Except.bind, Except.pure, Nat.reduceAdd]

theorem serializeProofData_eq (crypto : Crypto) {proof : ProofData} {tx sats spent block : Nat}
    (valid : Valid proof) (carries : Carries proof tx sats spent block) :
    serializeProofData crypto proof =
      .ok ⟨layout tx sats spent (recipientBytes proof.recipientBtc) block,
        splitIntoChunks (layout tx sats spent (recipientBytes proof.recipientBtc) block) 420⟩ := by
  have short := valid.recipientBtc.decode_length
  have written := serializeProofData_ok crypto carries.amount
    (writeBigUInt64LE_eq carries.sats_lt _ _) carries.blockNumber
    (writeBigUInt64LE_eq carries.block_lt _ _)
  have copied := copied_eq (bigEndian_length 32 tx) (littleEndian_length 8 sats)
    (bigEndian_length 32 spent) short (littleEndian_length 8 block)
  rw [hashBytes_eq valid.txHash.1 carries.txHash, hashBytes_eq valid.nullifier.1 carries.nullifier,
    addressToScriptHash_eq crypto valid.recipientBtc, copied] at written
  rw [written, layout, recipientBytes, padded, List.append_assoc]

theorem layout_length {tx sats spent block : Nat} {recipient : List UInt8}
    (width : recipient.length = 20) : (layout tx sats spent recipient block).length = 112 := by
  simp [layout, width]

theorem layout_injective {tx sats spent block tx' sats' spent' block' : Nat}
    {recipient recipient' : List UInt8} (width : recipient.length = recipient'.length)
    (same : layout tx sats spent recipient block = layout tx' sats' spent' recipient' block') :
    bigEndian 32 tx = bigEndian 32 tx' ∧ littleEndian 8 sats = littleEndian 8 sats' ∧
      bigEndian 32 spent = bigEndian 32 spent' ∧ recipient = recipient' ∧
      littleEndian 8 block = littleEndian 8 block' := by
  obtain ⟨tx_eq, same⟩ := List.append_inj same (by simp)
  obtain ⟨sats_eq, same⟩ := List.append_inj same (by simp)
  obtain ⟨spent_eq, same⟩ := List.append_inj same (by simp)
  obtain ⟨recipient_eq, same⟩ := List.append_inj same width
  obtain ⟨block_eq, -⟩ := List.append_inj same (by simp)
  exact ⟨tx_eq, sats_eq, spent_eq, recipient_eq, block_eq⟩

/-- Equal buffers mean equal fields, but for what the recipient's bytes leave out. -/
theorem serializeProofData_eq_iff (crypto : Crypto) {proof other : ProofData}
    (valid : Valid proof) (valid' : Valid other) :
    serializeProofData crypto other = serializeProofData crypto proof ↔
      recipientBytes other.recipientBtc = recipientBytes proof.recipientBtc ∧
        Same { other with recipientBtc := proof.recipientBtc } proof := by
  obtain ⟨tx, sats, spent, block, carries⟩ := valid.carries
  obtain ⟨tx', sats', spent', block', carries'⟩ := valid'.carries
  rw [serializeProofData_eq crypto valid carries, serializeProofData_eq crypto valid' carries']
  constructor
  · intro same
    injection same with same
    injection same with same
    obtain ⟨tx_eq, sats_eq, spent_eq, recipient_eq, block_eq⟩ := layout_injective
      ((recipientBytes_length valid'.recipientBtc).trans
        (recipientBytes_length valid.recipientBtc).symm) same
    have tx_same := bigEndian_injective carries'.tx_lt carries.tx_lt tx_eq
    have sats_same := littleEndian_injective carries'.sats_lt carries.sats_lt sats_eq
    have spent_same := bigEndian_injective carries'.spent_lt carries.spent_lt spent_eq
    have block_same := littleEndian_injective carries'.block_lt carries.block_lt block_eq
    refine ⟨recipient_eq, ?_, ?_, ?_, rfl, ?_⟩
    · exact carries'.txHash.trans (tx_same ▸ carries.txHash.symm)
    · exact carries'.amount.trans (sats_same ▸ carries.amount.symm)
    · exact carries'.nullifier.trans (spent_same ▸ carries.nullifier.symm)
    · exact carries'.blockNumber.trans (block_same ▸ carries.blockNumber.symm)
  · rintro ⟨recipient_eq, same⟩
    have tx_same : some tx' = some tx :=
      carries'.txHash.symm.trans (same.txHash.trans carries.txHash)
    have sats_same : Except.ok (sats' : Int) = Except.ok (sats : Int) :=
      carries'.amount.symm.trans (same.amount.trans carries.amount)
    have spent_same : some spent' = some spent :=
      carries'.nullifier.symm.trans (same.nullifier.trans carries.nullifier)
    have block_same : Except.ok (block' : Int) = Except.ok (block : Int) :=
      carries'.blockNumber.symm.trans (same.blockNumber.trans carries.blockNumber)
    simp only [Option.some.injEq, Except.ok.injEq, Int.natCast_inj]
      at tx_same sats_same spent_same block_same
    rw [tx_same, sats_same, spent_same, block_same, recipient_eq]

end Layout

/-- The public key, where one is set, is that of the private key. -/
def Paired (crypto : Crypto) (keys : Keys) (digest : List UInt8) : Prop :=
  keys.SEQUENCER_PUBLIC_KEY ≠ [] → ∀ r s, crypto.sign keys.SEQUENCER_PRIVATE_KEY digest = (r, s) →
    crypto.verify keys.SEQUENCER_PUBLIC_KEY digest (bigEndian 32 r) (bigEndian 32 s) = .ok true

/-- The two buffers are no collision, and the signature over the one is no forgery for the other:
it is accepted for the digest of the other only where that is the digest signed. -/
structure Unbroken (crypto : Crypto) (keys : Keys) (buffer other : List UInt8) : Prop where
  collisionFree : crypto.sha256 other = crypto.sha256 buffer → other = buffer
  unforged : ∀ r s, crypto.sign keys.SEQUENCER_PRIVATE_KEY (crypto.sha256 buffer) = (r, s) →
    crypto.verify keys.SEQUENCER_PUBLIC_KEY (crypto.sha256 other) (bigEndian 32 r)
      (bigEndian 32 s) = .ok true → crypto.sha256 other = crypto.sha256 buffer

/-- A valid proof on which nothing that the check rests on fails. -/
structure Candidate (crypto : Crypto) (keys : Keys) (buffer : List UInt8) (other : ProofData) :
    Prop where
  valid : Valid other
  unbroken : keys.SEQUENCER_PUBLIC_KEY ≠ [] → ∀ serialized,
    serializeProofData crypto other = .ok serialized →
      Unbroken crypto keys buffer serialized.buffer

theorem verifyProof_congr (crypto : Crypto) (keys : Keys) {proof other : ProofData}
    (same : serializeProofData crypto other = serializeProofData crypto proof) (signature : Text) :
    verifyProof crypto keys ⟨other, signature⟩ = verifyProof crypto keys ⟨proof, signature⟩ := by
  unfold verifyProof
  rw [same]

section Signatures

variable {crypto : Crypto} {keys : Keys} {other : ProofData} {buffer : List UInt8}
  {serialized : SerializedProof} {signature : Text}

/-- Where no public key is set every proof with a buffer passes. -/
theorem verifyProof_unset (unset : keys.SEQUENCER_PUBLIC_KEY = [])
    (written : serializeProofData crypto other = .ok serialized) :
    verifyProof crypto keys ⟨other, signature⟩ = true := by
  simp [verifyProof, written, bind, Except.bind, unset, pure, Except.pure]

/-- What is checked of a signature that the sequencer has made. -/
theorem verifyProof_made (set : keys.SEQUENCER_PUBLIC_KEY ≠ [])
    (made : signProof crypto keys buffer = .ok signature)
    (written : serializeProofData crypto other = .ok serialized) :
    verifyProof crypto keys ⟨other, signature⟩ = true ↔
      ∃ r s, crypto.sign keys.SEQUENCER_PRIVATE_KEY (crypto.sha256 buffer) = (r, s) ∧
        crypto.verify keys.SEQUENCER_PUBLIC_KEY (crypto.sha256 serialized.buffer)
          (bigEndian 32 r) (bigEndian 32 s) = .ok true := by
  obtain ⟨⟨r, s⟩, pair⟩ : ∃ pair, crypto.sign keys.SEQUENCER_PRIVATE_KEY (crypto.sha256 buffer) =
    pair := ⟨_, rfl⟩
  rw [signProof] at made
  split_ifs at made
  simp only [pair, Except.ok.injEq] at made
  have front : Hex.decode (slice signature 0 64) = bigEndian 32 r := by
    rw [← made, Hex.encode_append, slice, List.take_left' (by simp), List.drop_zero,
      Hex.decode_encode]
  have back : Hex.decode (slice signature 64 128) = bigEndian 32 s := by
    rw [← made, Hex.encode_append, slice, List.take_of_length_le (by simp),
      List.drop_left' (by simp), Hex.decode_encode]
  simp only [verifyProof, written, bind, Except.bind, if_neg set, front, back, pair, Prod.mk.injEq]
  constructor
  · intro verified
    refine ⟨r, s, ⟨rfl, rfl⟩, ?_⟩
    cases verdict : crypto.verify keys.SEQUENCER_PUBLIC_KEY (crypto.sha256 serialized.buffer)
        (bigEndian 32 r) (bigEndian 32 s) with
    | error reason => simp [verdict] at verified
    | ok accepted =>
        rw [verdict] at verified
        exact congrArg Except.ok verified
  · rintro ⟨r', s', ⟨rfl, rfl⟩, accepted⟩
    rw [accepted]

/-- Under a public key a made signature verifies for the candidates with its buffer. -/
theorem verifyProof_signed (set : keys.SEQUENCER_PUBLIC_KEY ≠ [])
    (paired : Paired crypto keys (crypto.sha256 buffer))
    (made : signProof crypto keys buffer = .ok signature)
    (written : serializeProofData crypto other = .ok serialized)
    (unbroken : Unbroken crypto keys buffer serialized.buffer) :
    verifyProof crypto keys ⟨other, signature⟩ = true ↔ serialized.buffer = buffer := by
  rw [verifyProof_made set made written]
  constructor
  · rintro ⟨r, s, pair, accepted⟩
    exact unbroken.collisionFree (unbroken.unforged r s pair accepted)
  · intro same
    obtain ⟨⟨r, s⟩, pair⟩ : ∃ pair, crypto.sign keys.SEQUENCER_PRIVATE_KEY
      (crypto.sha256 buffer) = pair := ⟨_, rfl⟩
    exact ⟨r, s, pair, same ▸ paired set r s pair⟩

end Signatures

theorem Valid.with_recipient {proof : ProofData} (valid : Valid proof) {address : Text}
    (p2wpkh : IsP2wpkh address) : Valid { proof with recipientBtc := address } :=
  ⟨valid.txHash, valid.amount, valid.nullifier, p2wpkh, valid.blockNumber⟩

theorem Valid.serialized (crypto : Crypto) {proof : ProofData} (valid : Valid proof) :
    ∃ serialized, serializeProofData crypto proof = .ok serialized ∧
      serialized.buffer.length = 112 ∧
        serialized.chunks = splitIntoChunks serialized.buffer 420 := by
  obtain ⟨tx, sats, spent, block, carries⟩ := valid.carries
  refine ⟨_, serializeProofData_eq crypto valid carries, ?_, rfl⟩
  exact layout_length (recipientBytes_length valid.recipientBtc)

/-- A recipient that another address can stand for leaves the buffer the same. -/
theorem exists_other (crypto : Crypto) {proof : ProofData} (valid : Valid proof)
    (plain : ¬ Distinctive proof.recipientBtc) :
    ∃ other, Valid other ∧ serializeProofData crypto other = serializeProofData crypto proof ∧
      ¬ Same other proof := by
  obtain ⟨address, p2wpkh, bytes, differs⟩ := exists_twin valid.recipientBtc plain
  have valid' := valid.with_recipient p2wpkh
  refine ⟨_, valid', ?_, fun same => differs same.recipientBtc⟩
  exact (serializeProofData_eq_iff crypto valid valid').mpr ⟨bytes, rfl, rfl, rfl, rfl, rfl⟩

theorem same_of_distinctive (crypto : Crypto) {proof other : ProofData} (valid : Valid proof)
    (valid' : Valid other) (distinctive : Distinctive proof.recipientBtc)
    (same : serializeProofData crypto other = serializeProofData crypto proof) :
    Same other proof := by
  obtain ⟨bytes, fields⟩ := (serializeProofData_eq_iff crypto valid valid').mp same
  have recipient := distinctive.told valid.recipientBtc valid'.recipientBtc bytes
  exact ⟨fields.txHash, fields.amount, fields.nullifier, recipient, fields.blockNumber⟩

theorem Unbroken.refl (crypto : Crypto) (keys : Keys) (buffer : List UInt8) :
    Unbroken crypto keys buffer buffer := ⟨fun _ => rfl, fun _ _ _ _ => rfl⟩

theorem exists_unequal {proof : ProofData} (valid : Valid proof) :
    ∃ other, Valid other ∧ ¬ Same other proof := by
  obtain ⟨value, -, -, read⟩ := valid.amount
  by_cases zero : value = 0
  · refine ⟨{ proof with amount := .bigint 1 }, ⟨valid.txHash, ⟨1, by decide, by decide, rfl⟩,
      valid.nullifier, valid.recipientBtc, valid.blockNumber⟩, fun same => ?_⟩
    have equal := same.amount.trans read
    rw [zero] at equal
    cases equal
  · refine ⟨{ proof with amount := .bigint 0 }, ⟨valid.txHash, ⟨0, by decide, by decide, rfl⟩,
      valid.nullifier, valid.recipientBtc, valid.blockNumber⟩, fun same => ?_⟩
    have equal := same.amount.trans read
    exact zero (Except.ok.inj equal).symm

theorem Valid.buffer_ext (crypto : Crypto) {proof other : ProofData} {left right : SerializedProof}
    (valid : Valid proof) (valid' : Valid other)
    (written : serializeProofData crypto proof = .ok left)
    (written' : serializeProofData crypto other = .ok right) (same : right.buffer = left.buffer) :
    right = left := by
  obtain ⟨_, own, -, chunks⟩ := valid.serialized crypto
  obtain ⟨_, theirs, -, chunks'⟩ := valid'.serialized crypto
  cases own.symm.trans written
  cases theirs.symm.trans written'
  cases left
  cases right
  simp only at same chunks chunks'
  rw [chunks, chunks', same]

/-- A buffer binds a proof's contents exactly when the recipient's letters can be read as bytes
far enough; the sequencer's signature over it does if also a public key is set to check it by. -/
theorem burnProof_binds_iff (crypto : Crypto) {proof : ProofData} (valid : Valid proof) :
    (∃ serialized, serializeProofData crypto proof = .ok serialized ∧
      serialized.buffer.length = 112) ∧
    ((∀ other, Valid other →
        serializeProofData crypto other = serializeProofData crypto proof → Same other proof) ↔
      Distinctive proof.recipientBtc) ∧
    ∀ keys serialized signature, serializeProofData crypto proof = .ok serialized →
      Paired crypto keys (crypto.sha256 serialized.buffer) →
      signProof crypto keys serialized.buffer = .ok signature →
        ((∀ other, Candidate crypto keys serialized.buffer other →
            verifyProof crypto keys ⟨other, signature⟩ = true → Same other proof) ↔
          keys.SEQUENCER_PUBLIC_KEY ≠ [] ∧ Distinctive proof.recipientBtc) := by
  refine ⟨?_, ?_, ?_⟩
  · obtain ⟨serialized, written, length, -⟩ := valid.serialized crypto
    exact ⟨serialized, written, length⟩
  · constructor
    · intro injective
      by_contra plain
      obtain ⟨other, valid', same, differs⟩ := exists_other crypto valid plain
      exact differs (injective other valid' same)
    · exact fun distinctive other valid' => same_of_distinctive crypto valid valid' distinctive
  · intro keys serialized signature written paired made
    constructor
    · intro binds
      have set : keys.SEQUENCER_PUBLIC_KEY ≠ [] := by
        intro unset
        obtain ⟨other, valid', differs⟩ := exists_unequal valid
        obtain ⟨theirs, their_written, -⟩ := valid'.serialized crypto
        exact differs (binds other ⟨valid', fun set => absurd unset set⟩
          (verifyProof_unset unset their_written))
      refine ⟨set, ?_⟩
      by_contra plain
      obtain ⟨other, valid', same, differs⟩ := exists_other crypto valid plain
      have candidate : Candidate crypto keys serialized.buffer other := by
        refine ⟨valid', fun _ theirs their_written => ?_⟩
        cases (their_written.symm.trans same).trans written
        exact Unbroken.refl crypto keys serialized.buffer
      apply differs
      apply binds other candidate
      rw [verifyProof_congr crypto keys same]
      exact (verifyProof_signed set paired made written
        (Unbroken.refl crypto keys serialized.buffer)).mpr rfl
    · rintro ⟨set, distinctive⟩ other candidate verified
      obtain ⟨theirs, their_written, -⟩ := candidate.valid.serialized crypto
      have unbroken := candidate.unbroken set theirs their_written
      have buffers := (verifyProof_signed set paired made their_written unbroken).mp verified
      apply same_of_distinctive crypto valid candidate.valid distinctive
      rw [their_written, written,
        valid.buffer_ext crypto candidate.valid written their_written buffers]

section Sample

def burn (recipientBtc : String) : ProofData where
  txHash := "0x5a1".toList
  amount := .bigint 100000
  nullifier := "0x7e3".toList
  recipientBtc := recipientBtc.toList
  blockNumber := .string "812345".toList

theorem burn_valid {recipientBtc : String} (program : List Bech32.Quintet)
    (length : program.length = 32)
    (spelled : recipientBtc.toList = Bech32.encode ['t', 'b'] (Bech32.version0 program)) :
    Valid (burn recipientBtc) := by
  have txHash : IsHash "0x5a1".toList := ⟨by decide, 0x5a1, by decide, by decide⟩
  have nullifier : IsHash "0x7e3".toList := ⟨by decide, 0x7e3, by decide, by decide⟩
  have amount : IsUInt64 (.bigint 100000) := ⟨100000, by decide, by decide, rfl⟩
  have blockNumber : IsUInt64 (.string "812345".toList) := ⟨812345, by decide, by decide, by decide⟩
  exact ⟨txHash, amount, nullifier, ⟨program, length, Bech32.spells_iff.mpr spelled⟩, blockNumber⟩

/-- A recipient whose letters read as sixteen bytes. -/
def readable : String := "tb1q20c4e5a60d9f83742ce065d93f7a4c28v9s5zq"

theorem readable_valid : Valid (burn readable) :=
  burn_valid [10, 15, 24, 21, 25, 20, 29, 26, 15, 13, 5, 9, 7, 17, 30, 21, 10, 24, 25, 15, 26, 20,
    13, 5, 17, 9, 30, 29, 21, 24, 10, 7] rfl (by decide +kernel)

theorem unreadable_valid : Valid (burn "tb1qw508d6qejxtdg4y5r3zarvary0c5xw7kxpjzsx") :=
  burn_valid [14, 20, 15, 7, 13, 26, 0, 25, 18, 6, 11, 13, 8, 21, 4, 20, 3, 17, 2, 29, 3, 12, 29,
    3, 4, 15, 24, 20, 6, 14, 30, 22] rfl (by decide +kernel)

def readableBuffer : List UInt8 :=
  layout 0x5a1 100000 0x7e3 (recipientBytes readable.toList) 812345

def key : Keys := ⟨"01".toList,
  "0279be667ef9dcbbac55a06295ce870b07029bfcdb2dce28d959f2815b16f81798".toList⟩

def signatureR : Scalar :=
  ⟨0xaea4193ef1180ee6c202817b2472d47e63c3950a1909f82b954523fc5eaee0ef, by decide⟩

def signatureS : Scalar :=
  ⟨0xc13becb0c169052e3a742dbeddb03aab0f7e1a0e735ceb373b48ad6498cbb9cb, by decide⟩

/-- SHA-256, and the curve on one signature, which is accepted for the first 32 bytes of a
digest. -/
def oneSignature : Crypto where
  sha256 message := (Sha256.sha256 message).bytes
  sign _ _ := (signatureR, signatureS)
  verify _ digest r s := .ok (decide (digest.take 32 = (Sha256.sha256 readableBuffer).bytes ∧
    r = bigEndian 32 signatureR ∧ s = bigEndian 32 signatureS))

theorem burn_written {recipientBtc : String} (valid : Valid (burn recipientBtc)) :
    ∃ serialized, serializeProofData oneSignature (burn recipientBtc) = .ok serialized ∧
      serialized.buffer =
        layout 0x5a1 100000 0x7e3 (recipientBytes recipientBtc.toList) 812345 := by
  have txHash : numberOf "0x5a1".toList = some 0x5a1 := by decide
  have nullifier : numberOf "0x7e3".toList = some 0x7e3 := by decide
  have blockNumber : (Quantity.string "812345".toList).toBigInt = .ok 812345 := by decide
  have carries : Carries (burn recipientBtc) 0x5a1 100000 0x7e3 812345 :=
    ⟨txHash, rfl, nullifier, blockNumber, by decide, by decide, by decide, by decide⟩
  exact ⟨_, serializeProofData_eq oneSignature valid carries, rfl⟩

theorem oneSignature_accepts {publicKey : Text} {digest r s : List UInt8}
    (accepted : oneSignature.verify publicKey digest r s = .ok true) :
    digest.take 32 = (Sha256.sha256 readableBuffer).bytes :=
  (of_decide_eq_true (Except.ok.inj accepted)).1

theorem readable_paired : Paired oneSignature key (oneSignature.sha256 readableBuffer) := by
  intro _ r s pair
  cases pair
  have whole : (oneSignature.sha256 readableBuffer).take 32 =
      (Sha256.sha256 readableBuffer).bytes :=
    List.take_of_length_le (Words.Words8.bytes_length _).le
  exact congrArg Except.ok (decide_eq_true ⟨whole, rfl, rfl⟩)

/-- The signature over the burn to a readable recipient is not one over the burn to another. -/
theorem readable_bound :
    (∀ other, Valid other → serializeProofData oneSignature other =
      serializeProofData oneSignature (burn readable) → Same other (burn readable)) ∧
    ∃ signature, signProof oneSignature key readableBuffer = .ok signature ∧
      verifyProof oneSignature key ⟨burn readable, signature⟩ = true ∧
      verifyProof oneSignature key ⟨burn "tb1qw508d6qejxtdg4y5r3zarvary0c5xw7kxpjzsx", signature⟩ =
        false := by
  have distinctive : Distinctive (burn readable).recipientBtc :=
    distinctive_iff.mpr ⟨15, Nat.le_refl 15, 0x28, by decide +kernel, by decide⟩
  obtain ⟨serialized, written, buffer⟩ := burn_written readable_valid
  have buffer : serialized.buffer = readableBuffer := buffer
  obtain ⟨other, otherWritten, otherBuffer⟩ := burn_written unreadable_valid
  obtain ⟨-, injective, bound⟩ := burnProof_binds_iff oneSignature readable_valid
  have set : key.SEQUENCER_PUBLIC_KEY ≠ [] := by decide
  have made : signProof oneSignature key serialized.buffer = .ok _ := rfl
  have digests : (oneSignature.sha256 other.buffer).take 32 ≠
      (Sha256.sha256 readableBuffer).bytes := by
    rw [otherBuffer]
    decide +kernel
  have unbroken : Unbroken oneSignature key serialized.buffer other.buffer := by
    constructor
    · intro same
      rw [buffer] at same
      refine absurd ?_ digests
      rw [same]
      exact List.take_of_length_le (Words.Words8.bytes_length _).le
    · intro r s _ accepted
      exact absurd (oneSignature_accepts accepted) digests
  have candidate : Candidate oneSignature key serialized.buffer
      (burn "tb1qw508d6qejxtdg4y5r3zarvary0c5xw7kxpjzsx") := by
    refine ⟨unreadable_valid, fun _ theirs theirWritten => ?_⟩
    cases theirWritten.symm.trans otherWritten
    exact unbroken
  have paired : Paired oneSignature key (oneSignature.sha256 serialized.buffer) := by
    rw [buffer]
    exact readable_paired
  have told := (bound key serialized _ written paired made).mpr ⟨set, distinctive⟩ _ candidate
  refine ⟨injective.mpr distinctive, _, by rw [← buffer]; exact made, ?_, ?_⟩
  · exact (verifyProof_signed set paired made written (Unbroken.refl _ _ _)).mpr rfl
  · rw [← Bool.not_eq_true]
    intro verified
    have recipients := (told verified).recipientBtc
    revert recipients
    decide +kernel

/-- Neither program starts with two hex digits: both recipients are written as zeros. -/
theorem recipients_interchanged :
    ∃ proof other, Valid proof ∧ Valid other ∧ proof.recipientBtc ≠ other.recipientBtc ∧
      ∀ crypto, serializeProofData crypto other = serializeProofData crypto proof ∧
        ∀ keys signature, verifyProof crypto keys ⟨other, signature⟩ =
          verifyProof crypto keys ⟨proof, signature⟩ := by
  have valid := unreadable_valid
  have valid' : Valid (burn "tb1qqypqxpq9qcrsszg2pvxq6rs0zqg3yyc5r7fxez") :=
    burn_valid [0, 4, 1, 0, 6, 1, 0, 5, 0, 24, 3, 16, 16, 2, 8, 10, 1, 12, 6, 0, 26, 3, 16, 15, 2,
      0, 8, 17, 4, 4, 24, 20] rfl (by decide +kernel)
  have bytes : recipientBytes (burn "tb1qqypqxpq9qcrsszg2pvxq6rs0zqg3yyc5r7fxez").recipientBtc =
      recipientBytes (burn "tb1qw508d6qejxtdg4y5r3zarvary0c5xw7kxpjzsx").recipientBtc := by
    decide +kernel
  refine ⟨_, _, valid, valid', by decide +kernel, fun crypto => ?_⟩
  have same := (serializeProofData_eq_iff crypto valid valid').mpr ⟨bytes, rfl, rfl, rfl, rfl, rfl⟩
  exact ⟨same, fun keys signature => verifyProof_congr crypto keys same signature⟩

end Sample

end PrivateBtc.Backend.StarknetProof
