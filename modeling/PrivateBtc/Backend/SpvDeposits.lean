/- PrivateBtc/Backend/SpvDeposits
   digest: From a mined payment to minted tokens: explorer, proof builder, calldata and vault. -/

import PrivateBtc.Backend.CalldataRounds
import PrivateBtc.Contracts.DepositTerms
import PrivateBtc.Contracts.HeaderRuns

set_option autoImplicit false
set_option relaxedAutoImplicit false

namespace PrivateBtc.Backend.SpvDeposits

open Library Library.JsText Library.Outcome Library.Transactional Library.WireFormat
open Library.HashTree (branch fold foldPairs height)
open BitcoinProof Calldata CalldataRounds
open Contracts.Corelib (Felt)
open Contracts.DepositTerms (Accepts deposit_accepted_iff p2trScript)
open Contracts.Hashing (Digest HashFunction ZeroTail bitcoinHash doubleSha256 doubleSha256_eq
  hashedMessage hashedMessage_eq_self)
open Contracts.HeaderStore (getMerkleRoot)
open Contracts.MerkleProof (CollisionFree checkStrings hashPair hashPair_eq nodeBytes_injective)
open Contracts.Vault (DepositArgs Genesis World execute tapkeyBytes txidKey)
open CryptoService (starkFieldPrime)
open HeaderRelay (Bytes32 asWords mapM_display node words words_node)

/-- What /spv-proof answers, as it is posted to /spv-deposit. -/
def spvBody (commitment : Text) (proof : SpvProof) : SpvDepositParams :=
  let (rawTxBytes, merkleProofWords) := encodeSpvProofAsCalldata proof
  { commitment
    blockHeight := proof.blockHeight
    txPos := proof.txPos
    rawTxBytes
    voutIndex := proof.voutIndex
    merkleProofWords := merkleProofWords.map fun words =>
      words.map fun word => Double.finite word.toNat }

/-- Bitcoin's hash as a byte string. -/
def digestOf (sha : HashFunction) (message : List UInt8) : Bytes32 :=
  ⟨(bitcoinHash sha message).bytes, Words.Words8.bytes_length _⟩

theorem asWords_digestOf (sha : HashFunction) : asWords (digestOf sha) = bitcoinHash sha := by
  funext message
  exact Words.Words8.ofBytes_bytes _

/-- The explorer's answers about a transaction that is in a block. -/
structure Mined (sha : HashFunction) (tx : Transaction) (reply : ExplorerReply) where
  withWitness : Bool
  rawTx : Hex.Writes (trim reply.rawTx) (tx.serialise withWitness)
  txids : List Bytes32
  count_lt : txids.length < 2 ^ 32
  leaf : txids[reply.pos]? = some (digestOf sha tx.stripped)
  root : Bytes32
  top : HashTree.root (node (digestOf sha)) txids = some root
  display : List.Forall₂ (fun text digest => Hex.Writes text digest.val.reverse) reply.merkle
    (branch (node (digestOf sha)) (height txids.length) txids reply.pos)
  blockHeight_lt : reply.blockHeight < 2 ^ 64
  amounts : ∀ output ∈ tx.outputs, output.amount < 2 ^ 53

namespace Mined

variable {sha : HashFunction} {tx : Transaction} {reply : ExplorerReply} (mined : Mined sha tx reply)

def path : List Digest :=
  (branch (node (digestOf sha)) (height mined.txids.length) mined.txids reply.pos).map words

include mined in
theorem pos_lt : reply.pos < 2 ^ 32 :=
  (List.getElem?_eq_some_iff.mp mined.leaf).1.trans mined.count_lt

include mined in
theorem pos_toNat : (UInt64.ofNat reply.pos).toNat = reply.pos := by
  have inside := mined.pos_lt
  rw [UInt64.toNat_ofNat', Nat.mod_eq_of_lt (by omega)]

/-- The path leads from Bitcoin's own hash of the transaction to the block's root. -/
theorem climbs : fold (hashPair (bitcoinHash sha)) (bitcoinHash sha tx.stripped) mined.path
    reply.pos = words mined.root := by
  have climbs := ((HashTree.root_eq_some (node (digestOf sha)) mined.txids mined.root).mp
    mined.top).2
  have start : words (digestOf sha tx.stripped) = bitcoinHash sha tx.stripped :=
    congrFun (asWords_digestOf sha) tx.stripped
  have mapped := HashTree.fold_map (node (digestOf sha)) (words_node (digestOf sha))
    (digestOf sha tx.stripped) (branch (node (digestOf sha)) (height mined.txids.length)
      mined.txids reply.pos) reply.pos
  rw [asWords_digestOf, start, HashTree.fold_branch (node (digestOf sha)) _ mined.txids reply.pos
    _ mined.root climbs mined.leaf] at mapped
  exact mapped

theorem path_length_lt : mined.path.length < starkFieldPrime := by
  have short : ∀ (k : Nat) (level : List Bytes32) (index : Nat),
      (branch (node (digestOf sha)) k level index).length ≤ k := by
    intro k
    induction k with
    | zero => exact fun _ _ => Nat.le_refl 0
    | succ k ih =>
        intro level index
        have rest := ih (HashTree.parents (node (digestOf sha)) level) (index / 2)
        rw [branch, List.length_append]
        cases HashTree.sibling level index with
        | none =>
            simp only [Option.toList_none, List.length_nil]
            omega
        | some sibling =>
            simp only [Option.toList_some, List.length_singleton]
            omega
  have levels : height mined.txids.length ≤ 32 :=
    Nat.clog_le_of_le_pow mined.count_lt.le
  have whole := short (height mined.txids.length) mined.txids reply.pos
  rw [path, List.length_map]
  exact lt_of_le_of_lt (whole.trans levels) (by decide)

/-- The strings hashed for the transaction, as Bitcoin reads it and as the contract reads it. -/
def hashedStrings : List (List UInt8) :=
  checkStrings (bitcoinHash sha) tx.stripped mined.path (.ofNat reply.pos) ++
    checkStrings (bitcoinHash sha) (hashedMessage tx.stripped) mined.path (.ofNat reply.pos)

/-- The contract's hash leads to the root only from the transaction's own digest. -/
theorem zeroTail_of_climbs (free : CollisionFree (bitcoinHash sha) mined.hashedStrings)
    (included : fold (hashPair (bitcoinHash sha)) (doubleSha256 sha tx.stripped) mined.path
      reply.pos = words mined.root) : ZeroTail tx.stripped := by
  rw [doubleSha256_eq] at included
  have inFirst : ∀ s ∈ checkStrings (bitcoinHash sha) tx.stripped mined.path (.ofNat reply.pos),
      s ∈ mined.hashedStrings := fun s member => List.mem_append_left _ member
  have inSecond : ∀ s ∈ checkStrings (bitcoinHash sha) (hashedMessage tx.stripped) mined.path
      (.ofNat reply.pos), s ∈ mined.hashedStrings := fun s member => List.mem_append_right _ member
  simp only [checkStrings, mined.pos_toNat] at inFirst inSecond
  have same := (HashTree.eq_of_fold_eq (hashPair (bitcoinHash sha))
    (bitcoinHash sha (hashedMessage tx.stripped)) (bitcoinHash sha tx.stripped) mined.path mined.path
    reply.pos reply.pos rfl rfl (by
      intro p metP q metQ equal
      rw [hashPair_eq, hashPair_eq] at equal
      exact nodeBytes_injective (free _
        (inSecond _ (List.mem_cons_of_mem _ (List.mem_map_of_mem metP))) _
        (inFirst _ (List.mem_cons_of_mem _ (List.mem_map_of_mem metQ))) equal))
    (included.trans mined.climbs.symm)).1
  exact (hashedMessage_eq_self tx.stripped).mp
    (free _ (inSecond _ List.mem_cons_self) _ (inFirst _ List.mem_cons_self) same)

end Mined

/-- The call that the relayer submits for a mined transaction. -/
def callArgs {sha : HashFunction} {tx : Transaction} {reply : ExplorerReply}
    (mined : Mined sha tx reply) (commitment : Felt) (vout : Nat) : DepositArgs where
  commitment := commitment
  blockHeight := .ofNat reply.blockHeight
  txPos := .ofNat reply.pos
  rawTx := tx.stripped
  voutIndex := .ofNat vout
  merkleProof := mined.path

variable {sha : HashFunction} {tx : Transaction} {reply : ExplorerReply}

/-- The proof of a transaction that pays the script, for the first output that does. -/
theorem buildSpvProof_mined (mined : Mined sha tx reply) {S : List UInt8}
    (pays : ∃ output ∈ tx.outputs, output.script = S) :
    ∃ proof output, buildSpvProof reply (Hex.encode S) = .ok proof ∧
      tx.outputs.findIdx? (·.script == S) = some proof.voutIndex ∧
      tx.outputs[proof.voutIndex]? = some output ∧ output.script = S ∧
      output.amount = proof.amountSats ∧ proof.blockHeight = reply.blockHeight ∧
      proof.txPos = reply.pos ∧ Hex.decode proof.rawTxHex = tx.stripped ∧
      proof.merkleProof = mined.path := by
  obtain ⟨-, first⟩ := findVaultOutput_ok tx mined.withWitness mined.rawTx mined.amounts S
  obtain ⟨paying, member, paid⟩ := pays
  cases found : tx.outputs.findIdx? (·.script == S) with
  | none =>
      have unpaid := List.findIdx?_eq_none_iff.mp found paying member
      simp [paid] at unpaid
  | some v =>
      obtain ⟨inside, script, -⟩ := List.findIdx?_eq_some_iff_getElem.mp found
      have place : tx.outputs[v]? = some tx.outputs[v] := List.getElem?_eq_getElem inside
      obtain ⟨stripped, strips, spells⟩ := stripWitnessData_writes tx mined.withWitness mined.rawTx
      refine ⟨⟨reply.blockHeight, reply.pos, stripped, mined.path, v, tx.outputs[v].amount⟩,
        tx.outputs[v], ?_, rfl, place, by simpa using script, rfl, rfl, rfl, spells.1, rfl⟩
      have converted := mapM_display mined.display
      rw [buildSpvProof]
      dsimp only
      rw [strips, ok_bind, first v _ found place, ok_bind]
      dsimp only
      rw [converted, ok_bind, pure_eq_ok, Mined.path]

/-- The body that the frontend posts gives the relayer's call. -/
theorem calls_mined (mined : Mined sha tx reply) {proof : SpvProof} {commitment : Text}
    {felts : FeltReading} {felt caller : Felt} (spelled : felts.felt commitment = some felt)
    (vout : proof.voutIndex < 2 ^ 32) (height_eq : proof.blockHeight = reply.blockHeight)
    (pos_eq : proof.txPos = reply.pos) (raw : Hex.decode proof.rawTxHex = tx.stripped)
    (path : proof.merkleProof = mined.path) :
    (Invocation.spvDeposit (spvBody commitment proof)).calls felts caller =
      some [.deposit caller (callArgs mined felt proof.voutIndex)] := by
  have heightVal : (UInt64.ofNat reply.blockHeight).toNat = reply.blockHeight := by
    rw [UInt64.toNat_ofNat', Nat.mod_eq_of_lt mined.blockHeight_lt]
  have voutVal : (UInt32.ofNat proof.voutIndex).toNat = proof.voutIndex := by
    rw [UInt32.toNat_ofNat', Nat.mod_eq_of_lt vout]
  have body : spvBody commitment proof =
      spvDepositParams commitment (callArgs mined felt proof.voutIndex) := by
    simp [spvBody, encodeSpvProofAsCalldata, spvDepositParams, callArgs, height_eq, pos_eq, raw,
      path, heightVal, voutVal, mined.pos_toNat, Function.comp_def]
  have size := tx.stripped_length_lt
  have rawFits : (callArgs mined felt proof.voutIndex).rawTx.length < starkFieldPrime :=
    lt_trans size (by decide)
  have round := spvDeposit_round spelled rawFits mined.path_length_lt
  simp only [Option.bind_eq_bind, Option.bind_eq_some_iff] at round
  obtain ⟨_, written, read⟩ := round
  rw [body, Invocation.calls]
  simp [written, read]

/-- The terms that a mined deposit meets or not. -/
structure Creditable (sha : HashFunction) (w : World) (tx : Transaction) (commitment : Felt)
    (amountSats : Nat) (script : List UInt8) : Prop where
  fresh : w.vault.commitments commitment = false
  unspent : w.vault.spentTxids (txidKey (bitcoinHash sha tx.stripped)) = false
  positive : 0 < amountSats
  covenant : script = p2trScript (tapkeyBytes w.vault)
  whole : ZeroTail tx.stripped
  room : w.token.totalSupply.val + 10 ^ 10 * amountSats < 2 ^ 256

theorem getMerkleRoot_ok {headers : Contracts.HeaderStore.Headers} {height : UInt64} {root : Digest}
    (relayed : getMerkleRoot headers height = .ok root) :
    headers.stored height = true ∧ headers.merkleRoots height = root := by
  simp only [getMerkleRoot, bind_eq_ok, Contracts.Corelib.assert_ok, pure_eq_ok,
    Except.ok.injEq] at relayed
  obtain ⟨_, stored, found⟩ := relayed
  exact ⟨stored, found⟩

/-- Of a mined deposit the vault asks nothing that is not in the terms, and all that is. -/
theorem accepts_iff_creditable (mined : Mined sha tx reply) {w : World} {commitment : Felt}
    {proof : SpvProof} {output : Output} {S : List UInt8}
    (free : CollisionFree (bitcoinHash sha) mined.hashedStrings)
    (relayed : getMerkleRoot w.headers (.ofNat reply.blockHeight) = .ok (words mined.root))
    (vout : proof.voutIndex < 2 ^ 32) (place : tx.outputs[proof.voutIndex]? = some output)
    (paid : output.script = S) (amount : output.amount = proof.amountSats) :
    (∃ amountSats script, Accepts sha w (callArgs mined commitment proof.voutIndex) amountSats
      script) ↔ Creditable sha w tx commitment proof.amountSats S := by
  obtain ⟨stored, root⟩ := getMerkleRoot_ok relayed
  have voutVal : (UInt32.ofNat proof.voutIndex).toNat = proof.voutIndex := by
    rw [UInt32.toNat_ofNat', Nat.mod_eq_of_lt vout]
  have parsed : Contracts.RawTransaction.parseOutput tx.stripped
      (UInt32.ofNat proof.voutIndex).toNat = .ok (proof.amountSats, S) := by
    rw [voutVal, Contracts.RawTransaction.parseOutput_stripped tx _ output place, amount, paid]
  have txid : (callArgs mined commitment proof.voutIndex).txid sha =
      doubleSha256 sha tx.stripped := rfl
  have own : ZeroTail tx.stripped →
      doubleSha256 sha tx.stripped = bitcoinHash sha tx.stripped :=
    Contracts.Hashing.doubleSha256_of_zeroTail sha
  constructor
  · rintro ⟨amountSats, script, accepts⟩
    have same : (amountSats, script) = (proof.amountSats, S) := by
      have read := accepts.parsed
      rw [callArgs, parsed, Except.ok.injEq] at read
      exact read.symm
    rw [Prod.mk.injEq] at same
    obtain ⟨rfl, rfl⟩ := same
    have included := accepts.included
    rw [txid, callArgs, mined.pos_toNat, root] at included
    have whole := mined.zeroTail_of_climbs free included
    have unspent := accepts.unspent
    rw [txid, own whole] at unspent
    exact ⟨accepts.fresh, unspent, accepts.positive, accepts.covenant, whole, accepts.room⟩
  · intro creditable
    refine ⟨proof.amountSats, S, creditable.fresh, stored, ?_, ?_, parsed, creditable.positive,
      creditable.covenant, creditable.room⟩
    · rw [txid, own creditable.whole]
      exact creditable.unspent
    · rw [txid, own creditable.whole, callArgs, mined.pos_toNat, root]
      exact mined.climbs

/-- A payment in a relayed block, from the explorer's answers through the proof builder and the
relayer's calldata to the vault: in every state that calls can reach, the call mints exactly the
amount of the first output with the script, or nothing if a term of it is not met. -/
theorem mined_deposit_iff (genesis : Genesis) (calls : List Contracts.Vault.Call)
    (mined : Mined sha tx reply) (free : CollisionFree (bitcoinHash sha) mined.hashedStrings)
    (felts : FeltReading) (commitment : Text) (felt caller : Felt)
    (spelled : felts.felt commitment = some felt)
    (S : List UInt8) (pays : ∃ output ∈ tx.outputs, output.script = S)
    (relayed : getMerkleRoot (run (execute sha) genesis.world calls).headers
      (.ofNat reply.blockHeight) = .ok (words mined.root)) :
    let w := run (execute sha) genesis.world calls
    ∃ proof args output, buildSpvProof reply (Hex.encode S) = .ok proof ∧
      (Invocation.spvDeposit (spvBody commitment proof)).calls felts caller =
        some [.deposit caller args] ∧
      tx.outputs.findIdx? (·.script == S) = some proof.voutIndex ∧
      tx.outputs[proof.voutIndex]? = some output ∧ output.amount = proof.amountSats ∧
      ((∃ w', execute sha w (.deposit caller args) = .ok w') ↔
        Creditable sha w tx felt proof.amountSats S) ∧
      ∀ w', execute sha w (.deposit caller args) = .ok w' →
        (w'.token.balances w.address).val =
            (w.token.balances w.address).val + 10 ^ 10 * proof.amountSats ∧
          w'.token.totalSupply.val = w.token.totalSupply.val + 10 ^ 10 * proof.amountSats ∧
          w'.vault.commitments felt = true := by
  intro w
  obtain ⟨proof, output, built, index, place, paid, amount, height_eq, pos_eq, raw, path⟩ :=
    buildSpvProof_mined mined pays
  have outputs : tx.outputs.length ≤ (tx.outputs.flatMap Output.bytes).length :=
    length_le_flatMap Output.bytes Output.bytes_length_pos tx.outputs
  have inside : proof.voutIndex < tx.outputs.length := (List.getElem?_eq_some_iff.mp place).1
  have vout : proof.voutIndex < 2 ^ 32 := by
    have size := tx.stripped_length_lt
    simp only [Parts.stripped, Parts.outputBytes, List.length_append] at size
    omega
  have address : w.address ≠ 0 := by
    rw [(Contracts.VaultRuns.ledger_run sha genesis calls).address]
    exact genesis.address_ne_zero
  refine ⟨proof, callArgs mined felt proof.voutIndex, output, built,
    calls_mined mined spelled vout height_eq pos_eq raw path, index, place, amount, ?_, ?_⟩
  · rw [← accepts_iff_creditable mined free relayed vout place paid amount]
    exact deposit_accepted_iff sha _ (Contracts.TokenRuns.world_conserved sha genesis calls) address
  · intro w' accepted
    obtain ⟨⟨script, parsed⟩, balance, supply⟩ := Contracts.SingleUse.deposit_mints accepted
    have sats : (callArgs mined felt proof.voutIndex).amountSats = proof.amountSats := by
      have voutVal : (UInt32.ofNat proof.voutIndex).toNat = proof.voutIndex := by
        rw [UInt32.toNat_ofNat', Nat.mod_eq_of_lt vout]
      rw [callArgs, voutVal, Contracts.RawTransaction.parseOutput_stripped tx _ output place,
        Except.ok.injEq, Prod.mk.injEq] at parsed
      exact parsed.1.symm.trans amount
    obtain ⟨_, token, -, -, -, -, -, -, -, -, rfl⟩ := Contracts.Vault.deposit_ok accepted
    rw [sats] at balance supply
    exact ⟨balance, supply, by simp [Contracts.Vault.deposited, callArgs]⟩

section Sample

open Library.Sha256 (sha256)
open Contracts.VaultRuns (robbedGenesis)

/-- A payment of 5000 satoshis to the taproot key of the sample vault: 94 bytes. -/
def covenantPayment : Transaction :=
  { segwitPayment with
    outputs := [⟨5000, p2trScript (List.replicate 32 0), by decide⟩]
    witness := [[]]
    witness_length := by decide
    size_lt := by decide +kernel }

def twoTxids : List Bytes32 := [digestOf sha256 covenantPayment.stripped, digestOf sha256 [1]]

def twoRoot : Bytes32 :=
  node (digestOf sha256) (digestOf sha256 covenantPayment.stripped) (digestOf sha256 [1])

def twoReply : ExplorerReply where
  blockHeight := 7
  pos := 0
  merkle := (branch (node (digestOf sha256)) (height twoTxids.length) twoTxids 0).map
    fun digest => Hex.encode digest.val.reverse
  rawTx := Hex.encode covenantPayment.stripped

def minedPayment : Mined sha256 covenantPayment twoReply where
  withWitness := false
  rawTx := by decide +kernel
  txids := twoTxids
  count_lt := by decide
  leaf := rfl
  root := twoRoot
  top := rfl
  display := by
    rw [twoReply, List.forall₂_map_left_iff, List.forall₂_same]
    intro digest _
    exact Hex.encode_writes _
  blockHeight_lt := by decide
  amounts := by decide

theorem minedPayment_free : CollisionFree (bitcoinHash sha256) minedPayment.hashedStrings := by
  have whole : hashedMessage covenantPayment.stripped = covenantPayment.stripped :=
    (hashedMessage_eq_self _).mpr (by decide +kernel)
  have strings : minedPayment.hashedStrings =
      [covenantPayment.stripped, (twoTxids.map Subtype.val).flatten,
        covenantPayment.stripped, (twoTxids.map Subtype.val).flatten] := by
    rw [Mined.hashedStrings, whole]
    decide +kernel
  have apart : bitcoinHash sha256 covenantPayment.stripped ≠
      bitcoinHash sha256 (twoTxids.map Subtype.val).flatten := by decide +kernel
  have two : ∀ s ∈ minedPayment.hashedStrings, s = covenantPayment.stripped ∨
      s = (twoTxids.map Subtype.val).flatten := by
    intro s member
    rw [strings] at member
    simp only [List.mem_cons, List.not_mem_nil, or_false] at member
    rcases member with here | here | here | here
    exacts [Or.inl here, Or.inr here, Or.inl here, Or.inr here]
  intro s first t second same
  rcases two s first with here | here
  · rcases two t second with there | there
    · rw [here, there]
    · rw [here, there] at same
      exact absurd same apart
  · rcases two t second with there | there
    · rw [here, there] at same
      exact absurd same.symm apart
    · rw [here, there]

/-- The relayer stores the header of block 7, and the payment in it is minted. -/
theorem mined_deposit_iff_covenantPayment :
    let w := run (execute sha256) robbedGenesis.world [.storeHeader 12 7 (words twoRoot)]
    ∃ proof args w', buildSpvProof twoReply (Hex.encode (p2trScript (List.replicate 32 0))) =
        .ok proof ∧
      (Invocation.spvDeposit (spvBody ['0', 'x', 'b'] proof)).calls .shortStrings 12 =
        some [.deposit 12 args] ∧
      execute sha256 w (.deposit 12 args) = .ok w' ∧ (w'.token.balances 11).val = 5 * 10 ^ 13 := by
  intro w
  obtain ⟨proof, args, output, built, submitted, -, place, amount, accepted_iff, credited⟩ :=
    mined_deposit_iff robbedGenesis [.storeHeader 12 7 (words twoRoot)] minedPayment
      minedPayment_free .shortStrings ['0', 'x', 'b'] 11 12 (by decide +kernel)
      (p2trScript (List.replicate 32 0)) ⟨_, List.mem_cons_self, rfl⟩ rfl
  have only : proof.amountSats = 5000 := by
    have member := List.mem_of_getElem? place
    rw [List.mem_singleton.mp member] at amount
    exact amount.symm
  rw [only] at accepted_iff credited
  obtain ⟨w', accepted⟩ := accepted_iff.mpr
    ⟨rfl, rfl, by decide, by decide +kernel, by decide +kernel, by decide⟩
  have before : (w.token.balances w.address).val = 0 := rfl
  have minted := (credited w' accepted).1
  rw [before] at minted
  exact ⟨proof, args, w', built, submitted, accepted, minted⟩

end Sample

end PrivateBtc.Backend.SpvDeposits
