/- PrivateBtc/Backend/CalldataRounds
   digest: The calldata of the three relayer calls is read back by the contracts' Serde rules. -/

import PrivateBtc.Backend.Calldata
import PrivateBtc.Backend.HeaderRelay

set_option autoImplicit false
set_option relaxedAutoImplicit false

namespace PrivateBtc.Backend.CalldataRounds

open Library Library.JsText
open Calldata CryptoService FeltReading
open Contracts.Corelib (Felt)
open Contracts.Hashing (Digest)
open Contracts.Vault (DepositArgs WithdrawArgs)
open HeaderRelay (Bytes32 merkleRootToU32Array merkleRootToU32Array_writes words)
open WithdrawGate (WithdrawCall)

/-- `felts` are the serialization of `value`, whatever comes after them. -/
def Reads {A : Type} (read : Reader A) (value : A) (felts : List Felt) : Prop :=
  ∀ rest, read (felts ++ rest) = some (value, rest)

def feltOfNat (n : Nat) : Felt := Fin.ofNat _ n

theorem feltOfNat_val {n : Nat} (fits : n < starkFieldPrime) : (feltOfNat n).val = n := by
  rw [feltOfNat, Fin.val_ofNat, Nat.mod_eq_of_lt]
  exact fits

theorem reads_felt (felt : Felt) : Reads readFelt felt [felt] := fun _ => rfl

theorem reads_below {bound n : Nat} (small : n < bound) (fits : n < starkFieldPrime) :
    Reads (readBelow bound) n [feltOfNat n] := by
  intro rest
  rw [List.singleton_append, readBelow_cons, feltOfNat_val fits]
  exact ⟨small, rfl, rfl⟩

theorem reads_many {A : Type} {read : Reader A} (felts : A → List Felt) (items : List A)
    (each : ∀ item ∈ items, Reads read item (felts item)) :
    Reads (readMany read items.length) items (items.flatMap felts) := by
  intro rest
  induction items with
  | nil => rfl
  | cons item items ih =>
      have first := each item List.mem_cons_self (items.flatMap felts ++ rest)
      have others := ih fun other member => each other (List.mem_cons_of_mem _ member)
      rw [List.length_cons, List.flatMap_cons, List.append_assoc, readMany, first]
      simp only [Option.bind_eq_bind, Option.bind_some, others, Option.pure_def]

theorem reads_span {A : Type} {read : Reader A} (felts : A → List Felt) (items : List A)
    (each : ∀ item ∈ items, Reads read item (felts item))
    (fits : items.length < starkFieldPrime) :
    Reads (readSpan read) items (feltOfNat items.length :: items.flatMap felts) := by
  intro rest
  rw [List.cons_append, readSpan, feltOfNat_val fits]
  exact reads_many felts items each rest

def digestFelts (digest : Digest) : List Felt := digest.toList.map fun word => feltOfNat word.toNat

theorem reads_digest (digest : Digest) : Reads readDigest digest (digestFelts digest) := by
  intro rest
  have small : ∀ n ∈ digest.toList.map UInt32.toNat, Reads (readBelow (2 ^ 32)) n [feltOfNat n] := by
    intro n member
    obtain ⟨word, -, rfl⟩ := List.mem_map.mp member
    exact reads_below word.toNat_lt (word.toNat_lt.trans (by decide))
  have words := reads_many (fun n => [feltOfNat n]) (digest.toList.map UInt32.toNat) small rest
  have layout : digestFelts digest =
      (digest.toList.map UInt32.toNat).flatMap fun n => [feltOfNat n] := by
    rw [digestFelts, List.flatMap_map, List.map_eq_flatMap]
  rw [List.length_map, show digest.toList.length = 8 from rfl] at words
  rw [readDigest, layout, words]
  simp only [Option.bind_eq_bind, Option.bind_some, Option.pure_def, List.map_map,
    Function.comp_def, UInt32.ofNat_toNat, List.map_id', Words.Words8.ofList_toList]

/-- The numbers and texts that `executeSpvDeposit` is called with for the arguments. -/
def spvDepositParams (commitment : Text) (args : DepositArgs) : SpvDepositParams where
  commitment := commitment
  blockHeight := args.blockHeight.toNat
  txPos := args.txPos.toNat
  rawTxBytes := args.rawTx
  voutIndex := args.voutIndex.toNat
  merkleProofWords := args.merkleProof.map fun digest =>
    digest.toList.map fun word => Double.finite word.toNat

/-- The calldata of `relayHeader`. -/
def storeHeaderCalldata (height : Nat) (merkleRootHex : Text) : Except String (List Text) := do
  let words ← merkleRootToU32Array merkleRootHex
  pure (decimal height :: words.toList.map fun word => decimal word.toNat)

def readStoreHeader (felts : List Felt) : Option (UInt64 × Digest) := do
  let (height, felts) ← readBelow (2 ^ 64) felts
  let (merkleRoot, felts) ← readDigest felts
  if felts.isEmpty then some (.ofNat height, merkleRoot) else none

theorem feltOf_of_bigInt {text : Text} {n : Nat} (read : bigInt text = some (n : Int))
    (fits : n < starkFieldPrime) : feltOf text = some (feltOfNat n) := by
  rw [feltOf_eq_some, read, feltOfNat_val fits]

theorem word_fits (word : UInt32) : word.toNat < starkFieldPrime :=
  word.toNat_lt.trans (by decide)

variable (felts : FeltReading)

theorem felt_decimal {n : Nat} (fits : n < starkFieldPrime) :
    felts.felt (decimal n) = some (feltOfNat n) := by
  rw [felts.felt_decimal]
  exact feltOf_of_bigInt (bigInt_toText _) fits

theorem felt_hexText {n : Nat} (fits : n < starkFieldPrime) :
    felts.felt (hexText n) = some (feltOfNat n) := by
  rw [felts.felt_hexText]
  exact feltOf_of_bigInt (bigInt_hexText n) fits

theorem felt_word (word : UInt32) :
    felts.felt (Double.toText (.finite word.toNat)) = some (feltOfNat word.toNat) := by
  have small : word.toNat < 2 ^ 52 := word.toNat_lt.trans (by decide)
  rw [Double.toText_natCast small]
  exact felt_decimal felts (word_fits word)

variable {felts}

theorem mapM_written {A : Type} {write : A → Text} {felt : A → Felt} (items : List A)
    (each : ∀ item ∈ items, felts.felt (write item) = some (felt item)) :
    (items.map write).mapM felts.felt = some (items.map felt) := by
  induction items with
  | nil => rfl
  | cons item items ih =>
      have first := each item List.mem_cons_self
      have others := ih fun other member => each other (List.mem_cons_of_mem _ member)
      rw [List.map_cons, List.mapM_cons, first, others]
      rfl

theorem mapM_nil : ([] : List Text).mapM felts.felt = some [] := rfl

theorem mapM_append {left right : List Text} {first second : List Felt}
    (leftRead : left.mapM felts.felt = some first) (rightRead : right.mapM felts.felt = some second) :
    (left ++ right).mapM felts.felt = some (first ++ second) := by
  rw [List.mapM_append, leftRead, rightRead]
  rfl

theorem mapM_cons {text : Text} {rest : List Text} {felt : Felt} {later : List Felt}
    (first : felts.felt text = some felt) (others : rest.mapM felts.felt = some later) :
    (text :: rest).mapM felts.felt = some (felt :: later) := by
  rw [List.mapM_cons, first, others]
  rfl

theorem mapM_digests (digests : List Digest) :
    ((digests.map fun digest => digest.toList.map fun word =>
      Double.finite word.toNat).flatMap fun words => words.map Double.toText).mapM felts.felt =
    some (digests.flatMap digestFelts) := by
  induction digests with
  | nil => rfl
  | cons digest digests ih =>
      have first := mapM_written digest.toList fun word _ => felt_word felts word
      rw [List.map_cons, List.flatMap_cons, List.flatMap_cons, List.map_map]
      exact mapM_append first ih

def bytesFelts (bytes : List UInt8) : List Felt := bytes.map fun byte => feltOfNat byte.toNat

/-- The arguments of `deposit` as the vault's interface serializes them. -/
def depositFelts (args : DepositArgs) : List Felt :=
  [args.commitment, feltOfNat args.blockHeight.toNat, feltOfNat args.txPos.toNat] ++
  (feltOfNat args.rawTx.length :: bytesFelts args.rawTx) ++
  [feltOfNat args.voutIndex.toNat] ++
  (feltOfNat args.merkleProof.length :: args.merkleProof.flatMap digestFelts)

def withdrawFelts (args : WithdrawArgs) : List Felt :=
  [args.nullifier, feltOfNat args.proof.length] ++ args.proof ++
    [args.recipient, feltOfNat (args.amount.val % 2 ^ 128), feltOfNat (args.amount.val / 2 ^ 128)]

def storeHeaderFelts (height : UInt64) (merkleRoot : Digest) : List Felt :=
  feltOfNat height.toNat :: digestFelts merkleRoot

theorem long_fits (long : UInt64) : long.toNat < starkFieldPrime :=
  long.toNat_lt.trans (by decide)

theorem byte_fits (byte : UInt8) : byte.toNat < starkFieldPrime :=
  byte.toNat_lt.trans (by decide)

theorem spvDeposit_written {commitment : Text} {args : DepositArgs}
    (spelled : felts.felt commitment = some args.commitment)
    (rawTxFits : args.rawTx.length < starkFieldPrime)
    (proofFits : args.merkleProof.length < starkFieldPrime) :
    (spvDepositCalldata (spvDepositParams commitment args)).mapM felts.felt =
      some (depositFelts args) := by
  have height := felt_decimal felts (long_fits args.blockHeight)
  have pos := felt_decimal felts (long_fits args.txPos)
  have vout := felt_decimal felts (word_fits args.voutIndex)
  have bytes := mapM_written args.rawTx fun byte _ => felt_decimal felts (byte_fits byte)
  rw [spvDepositCalldata, spvDepositParams, depositFelts]
  simp only [List.length_map]
  apply mapM_append
  · apply mapM_append
    · apply mapM_append
      · exact mapM_cons spelled (mapM_cons height (mapM_cons pos mapM_nil))
      · exact mapM_cons (felt_decimal felts rawTxFits) bytes
    · exact mapM_cons vout mapM_nil
  · exact mapM_cons (felt_decimal felts proofFits) (mapM_digests args.merkleProof)

theorem readDeposit_felts {args : DepositArgs} (rawTxFits : args.rawTx.length < starkFieldPrime)
    (proofFits : args.merkleProof.length < starkFieldPrime) :
    readDeposit (depositFelts args) = some args := by
  have height := reads_below args.blockHeight.toNat_lt (long_fits args.blockHeight)
  have pos := reads_below args.txPos.toNat_lt (long_fits args.txPos)
  have vout := reads_below args.voutIndex.toNat_lt (word_fits args.voutIndex)
  have bytes : Reads (readSpan (readBelow (2 ^ 8))) (args.rawTx.map UInt8.toNat)
      (feltOfNat args.rawTx.length :: bytesFelts args.rawTx) := by
    have small : ∀ n ∈ args.rawTx.map UInt8.toNat, Reads (readBelow (2 ^ 8)) n [feltOfNat n] := by
      intro n member
      obtain ⟨byte, -, rfl⟩ := List.mem_map.mp member
      exact reads_below byte.toNat_lt (byte_fits byte)
    have span := reads_span (fun n => [feltOfNat n]) (args.rawTx.map UInt8.toNat) small
      (by rwa [List.length_map])
    rw [List.length_map, List.flatMap_map, ← List.map_eq_flatMap] at span
    exact span
  have proof := reads_span digestFelts args.merkleProof (fun digest _ => reads_digest digest)
    proofFits
  have layout : depositFelts args = [args.commitment] ++ ([feltOfNat args.blockHeight.toNat] ++
      ([feltOfNat args.txPos.toNat] ++ ((feltOfNat args.rawTx.length :: bytesFelts args.rawTx) ++
      ([feltOfNat args.voutIndex.toNat] ++ ((feltOfNat args.merkleProof.length ::
        args.merkleProof.flatMap digestFelts) ++ []))))) := by
    rw [depositFelts]
    simp
  rw [layout, readDeposit, reads_felt args.commitment _]
  simp only [Option.bind_eq_bind, Option.bind_some]
  rw [height _, Option.bind_some, pos _, Option.bind_some, bytes _, Option.bind_some, vout _,
    Option.bind_some, proof _, Option.bind_some]
  simp [Function.comp_def]

theorem spvDeposit_round {commitment : Text} {args : DepositArgs}
    (spelled : felts.felt commitment = some args.commitment)
    (rawTxFits : args.rawTx.length < starkFieldPrime)
    (proofFits : args.merkleProof.length < starkFieldPrime) :
    (spvDepositCalldata (spvDepositParams commitment args)).mapM felts.felt >>= readDeposit =
      some args := by
  rw [spvDeposit_written spelled rawTxFits proofFits]
  exact readDeposit_felts rawTxFits proofFits

/-- The call's texts and amount are those of the arguments. -/
structure Denotes (felts : FeltReading) (call : WithdrawCall) (args : WithdrawArgs) : Prop where
  nullifier : felts.felt call.nullifierHash = some args.nullifier
  proof : call.proof.mapM felts.felt = some args.proof
  recipient : felts.felt call.recipient = some args.recipient
  amount : call.amount = args.amount.val

theorem length_read {texts : List Text} {written : List Felt}
    (read : texts.mapM felts.felt = some written) : texts.length = written.length := by
  induction texts generalizing written with
  | nil =>
      cases read
      rfl
  | cons text texts ih =>
      rw [List.mapM_cons] at read
      simp only [Option.bind_eq_bind, Option.bind_eq_some_iff, Option.pure_def,
        Option.some.injEq] at read
      obtain ⟨felt, -, others, read, rfl⟩ := read
      rw [List.length_cons, List.length_cons, ih read]

theorem limb_fits {n : Nat} (small : n < 2 ^ 128) : n < starkFieldPrime :=
  small.trans (by decide)

theorem withdraw_round {call : WithdrawCall} {args : WithdrawArgs}
    (denotes : Denotes felts call args)
    (proofFits : args.proof.length < starkFieldPrime) :
    (withdrawCalldata call).mapM felts.felt >>= readWithdraw = some args := by
  have same := length_read denotes.proof
  have lowSmall : args.amount.val % 2 ^ 128 < 2 ^ 128 := Nat.mod_lt _ (by decide)
  have highSmall : args.amount.val / 2 ^ 128 < 2 ^ 128 := Nat.div_lt_of_lt_mul args.amount.isLt
  have low := felt_hexText felts (limb_fits lowSmall)
  have high := felt_hexText felts (limb_fits highSmall)
  have written : (withdrawCalldata call).mapM felts.felt = some (withdrawFelts args) := by
    rw [withdrawCalldata, withdrawFelts, same, denotes.amount]
    apply mapM_append
    · apply mapM_append
      · exact mapM_cons denotes.nullifier (mapM_cons (felt_decimal felts proofFits) mapM_nil)
      · exact denotes.proof
    · exact mapM_cons denotes.recipient (mapM_cons low (mapM_cons high mapM_nil))
  have proof := reads_span (fun felt => [felt]) args.proof (fun felt _ => reads_felt felt) proofFits
  have lowRead := reads_below lowSmall (limb_fits lowSmall)
  have highRead := reads_below highSmall (limb_fits highSmall)
  have layout : withdrawFelts args = [args.nullifier] ++ ((feltOfNat args.proof.length ::
      args.proof.flatMap fun felt => [felt]) ++ ([args.recipient] ++
      ([feltOfNat (args.amount.val % 2 ^ 128)] ++
      ([feltOfNat (args.amount.val / 2 ^ 128)] ++ [])))) := by
    rw [withdrawFelts]
    simp
  have amount : Fin.ofNat (2 ^ 256) (args.amount.val % 2 ^ 128 +
      2 ^ 128 * (args.amount.val / 2 ^ 128)) = args.amount := by
    rw [Nat.mod_add_div]
    exact Fin.ofNat_val_eq_self args.amount
  rw [written, layout]
  simp only [Option.bind_eq_bind, Option.bind_some, readWithdraw]
  rw [reads_felt args.nullifier _, Option.bind_some, proof _, Option.bind_some,
    reads_felt args.recipient _, Option.bind_some, lowRead _, Option.bind_some, highRead _,
    Option.bind_some, amount]
  rfl

theorem storeHeader_round {height : UInt64} {merkleRootHex : Text} {merkleRoot : Bytes32}
    (written : Hex.Writes merkleRootHex merkleRoot.val) :
    ∃ texts, storeHeaderCalldata height.toNat merkleRootHex = .ok texts ∧
      texts.mapM felts.felt >>= readStoreHeader = some (height, words merkleRoot) := by
  have converted := merkleRootToU32Array_writes written
  refine ⟨_, by rw [storeHeaderCalldata, converted]; rfl, ?_⟩
  have spelled := mapM_written (words merkleRoot).toList fun word _ =>
    felt_decimal felts (word_fits word)
  have felts := mapM_cons (felt_decimal felts (long_fits height)) spelled
  have heightRead := reads_below height.toNat_lt (long_fits height)
  have layout : storeHeaderFelts height (words merkleRoot) =
      [feltOfNat height.toNat] ++ (digestFelts (words merkleRoot) ++ []) := by
    simp [storeHeaderFelts]
  rw [felts]
  change readStoreHeader (storeHeaderFelts height (words merkleRoot)) = _
  rw [layout, readStoreHeader]
  simp only [Option.bind_eq_bind]
  rw [heightRead _, Option.bind_some, reads_digest _ _, Option.bind_some]
  simp

/-- Whatever the lengths of its variable parts, and however starknet.js writes the texts that are
no numbers, the calldata of each relayer call is read back as the arguments, with nothing left
after them. -/
theorem calldata_rounds (felts : FeltReading) :
    (∀ (commitment : Text) (args : DepositArgs), felts.felt commitment = some args.commitment →
      args.rawTx.length < starkFieldPrime → args.merkleProof.length < starkFieldPrime →
      (spvDepositCalldata (spvDepositParams commitment args)).mapM felts.felt >>= readDeposit =
        some args) ∧
    (∀ (call : WithdrawCall) (args : WithdrawArgs), Denotes felts call args →
      args.proof.length < starkFieldPrime →
      (withdrawCalldata call).mapM felts.felt >>= readWithdraw = some args) ∧
    (∀ (height : UInt64) (merkleRootHex : Text) (merkleRoot : Bytes32),
      Hex.Writes merkleRootHex merkleRoot.val →
      ∃ texts, storeHeaderCalldata height.toNat merkleRootHex = .ok texts ∧
        texts.mapM felts.felt >>= readStoreHeader = some (height, words merkleRoot)) := by
  refine ⟨?_, ?_, ?_⟩
  · intro commitment args spelled rawTxFits proofFits
    exact spvDeposit_round spelled rawTxFits proofFits
  · intro call args denotes proofFits
    exact withdraw_round denotes proofFits
  · intro height merkleRootHex merkleRoot written
    exact storeHeader_round written

def sampleDeposit : DepositArgs where
  commitment := 11
  blockHeight := 200000
  txPos := 3
  rawTx := [2, 0, 0, 0]
  voutIndex := 1
  merkleProof := [⟨1, 2, 3, 4, 5, 6, 7, 8⟩, ⟨8, 7, 6, 5, 4, 3, 2, 1⟩]

def sampleCall : WithdrawCall := ⟨['0', 'x', 'b'], [['1'], ['2']], ['9'], 2 ^ 130 + 7⟩

def sampleWithdraw : WithdrawArgs := ⟨11, [1, 2], 9, 1361129467683753853853498429727072845831⟩

theorem calldata_rounds_sample :
    (spvDepositCalldata (spvDepositParams ['0', 'x', 'b'] sampleDeposit)).mapM shortStrings.felt >>=
      readDeposit = some sampleDeposit ∧
    (withdrawCalldata sampleCall).mapM shortStrings.felt >>= readWithdraw = some sampleWithdraw ∧
    ∃ texts, storeHeaderCalldata (200000 : UInt64).toNat (Hex.encode (List.replicate 32 9)) =
      .ok texts ∧ texts.mapM shortStrings.felt >>= readStoreHeader =
        some (200000, words ⟨List.replicate 32 9, rfl⟩) := by
  obtain ⟨deposit, withdraw, storeHeader⟩ := calldata_rounds shortStrings
  refine ⟨?_, ?_, ?_⟩
  · exact deposit ['0', 'x', 'b'] sampleDeposit (by decide +kernel) (by decide) (by decide)
  · apply withdraw sampleCall sampleWithdraw _ (by decide)
    exact ⟨by decide +kernel, by decide +kernel, by decide +kernel, by decide +kernel⟩
  · exact storeHeader 200000 _ ⟨List.replicate 32 9, rfl⟩ (Hex.encode_writes _)

end PrivateBtc.Backend.CalldataRounds
