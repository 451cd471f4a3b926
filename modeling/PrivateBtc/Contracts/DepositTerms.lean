/- PrivateBtc/Contracts/DepositTerms
   digest: The terms on which the vault accepts a deposit, each one met or not by itself. -/

import PrivateBtc.Contracts.SingleUse
import PrivateBtc.Contracts.TokenRuns

set_option autoImplicit false
set_option relaxedAutoImplicit false

namespace PrivateBtc.Contracts.DepositTerms

open Library Library.Outcome Corelib Vault
open Hashing (Digest HashFunction bitcoinHash doubleSha256 doubleSha256_of_zeroTail
  zeroTail_of_aligned)
open MerkleProof (hashPair hashPair_eq nodeBytes verifyMerkleProof verifyMerkleProof_iff)
open RawTransaction (byteAt byteAt_ok matchesFrom parseOutput scriptMatches scriptMatchesP2tr)

/-- The script of a version 1 witness program. -/
def p2trScript (tapkey : List UInt8) : List UInt8 := 0x51 :: 0x20 :: tapkey

theorem tapkeyBytes_length (self : VaultStorage) : (tapkeyBytes self).length = 32 := by
  rw [tapkeyBytes, Hashing.foldl_pushU32Be_toList, Words.Words8.bytes_length]

theorem matchesFrom_iff {script key : List UInt8} (width : script.length = key.length + 2)
    (remaining i : Nat) (rest : i + remaining = key.length) :
    matchesFrom script key remaining i = .ok true ↔ script.drop (i + 2) = key.drop i := by
  induction remaining generalizing i with
  | zero =>
      rw [List.drop_of_length_le (by omega), List.drop_of_length_le (by omega)]
      simp [matchesFrom]
  | succ remaining ih =>
      have inScript : i + 2 < script.length := by omega
      have inKey : i < key.length := by omega
      rw [matchesFrom, byteAt_ok (List.getElem?_eq_getElem inScript), ok_bind,
        byteAt_ok (List.getElem?_eq_getElem inKey), ok_bind, List.drop_eq_getElem_cons inScript,
        List.drop_eq_getElem_cons inKey, List.cons.injEq]
      by_cases same : script[i + 2] = key[i]
      · rw [if_neg (by simpa using same), ih (i + 1) (by omega)]
        simp [same, Nat.add_right_comm]
      · rw [if_pos same]
        simp [same]

/-- The check accepts one script only. -/
theorem scriptMatchesP2tr_iff {script tapkey : List UInt8} (width : tapkey.length = 32) :
    scriptMatchesP2tr script tapkey = .ok true ↔ script = p2trScript tapkey := by
  rw [scriptMatchesP2tr, scriptMatches, p2trScript]
  by_cases long : script.length = 34
  · rcases script with _ | ⟨opcode, _ | ⟨push, program⟩⟩
    · simp at long
    · simp at long
    · rw [if_neg (by simpa using long)]
      have all : matchesFrom (opcode :: push :: program) tapkey 32 0 = .ok true ↔
          program = tapkey.drop 0 :=
        matchesFrom_iff (by rw [long, width]) 32 0 (by omega)
      simp only [byteAt, List.getElem?_cons_zero, List.getElem?_cons_succ, ok_bind,
        List.cons.injEq]
      by_cases first : opcode = 0x51
      · by_cases second : push = 0x20
        · rw [if_neg (by simpa using first), if_neg (by simpa using second), all]
          simp [first, second]
        · rw [if_neg (by simpa using first), if_pos second]
          simp [second]
      · rw [if_pos first]
        simp [first]
  · rw [if_pos (by simpa using long)]
    constructor
    · rintro ⟨⟩
    · rintro rfl
      simp [width] at long

/-- Two digests fill whole words, so the contract's double hash is Bitcoin's on them. -/
theorem hashPair_double (sha : HashFunction) :
    hashPair (doubleSha256 sha) = hashPair (bitcoinHash sha) := by
  funext left right
  rw [hashPair_eq, hashPair_eq, doubleSha256_of_zeroTail]
  exact zeroTail_of_aligned (by simp [nodeBytes])

/-- What a deposit call has to bring, in a world. -/
structure Accepts (sha : HashFunction) (w : World) (args : DepositArgs) (amountSats : Nat)
    (script : List UInt8) : Prop where
  fresh : w.vault.commitments args.commitment = false
  stored : w.headers.stored args.blockHeight = true
  unspent : w.vault.spentTxids (txidKey (args.txid sha)) = false
  included : HashTree.fold (hashPair (bitcoinHash sha)) (args.txid sha) args.merkleProof
    args.txPos.toNat = w.headers.merkleRoots args.blockHeight
  parsed : parseOutput args.rawTx args.voutIndex.toNat = .ok (amountSats, script)
  positive : 0 < amountSats
  covenant : script = p2trScript (tapkeyBytes w.vault)
  room : w.token.totalSupply.val + 10 ^ 10 * amountSats < 2 ^ 256

theorem mint_accepted {token : MockBtc.Token} {recipient : ContractAddress} {amount : U256}
    (conserved : TokenRuns.Conserved token) (nonzero : recipient ≠ 0)
    (room : token.totalSupply.val + amount.val < 2 ^ 256) :
    ∃ token', MockBtc.mint token recipient amount = .ok token' := by
  obtain ⟨supply, added⟩ := TokenRuns.addU256_fits room
  obtain ⟨-, mints⟩ := TokenRuns.roomy_of_conserved conserved
  obtain ⟨balance, sum⟩ := mints recipient amount supply added
  simp [MockBtc.mint, MockBtc.InternalFunctions.mint, assert, nonzero, added, sum]

theorem deposit_accepted_iff (sha : HashFunction) {w : World} (args : DepositArgs)
    (conserved : TokenRuns.Conserved w.token) (nonzero : w.address ≠ 0) :
    (∃ w', deposit sha w args = .ok w') ↔
      ∃ amountSats script, Accepts sha w args amountSats script := by
  have width := tapkeyBytes_length w.vault
  constructor
  · rintro ⟨w', accepted⟩
    obtain ⟨script, token, fresh, stored, unspent, included, parsed, positive, matched, minted, -⟩ :=
      deposit_ok accepted
    rw [verifyMerkleProof_iff, hashPair_double] at included
    have supply := (MockBtc.InternalFunctions.mint_ok minted).2.1
    have bound := token.totalSupply.isLt
    have wei := VaultRuns.toWei_val (RawTransaction.parseOutput_amount_lt parsed)
    exact ⟨args.amountSats, script, fresh, stored, unspent, included, parsed, positive,
      (scriptMatchesP2tr_iff width).mp matched, by omega⟩
  · rintro ⟨amountSats, script, accepts⟩
    have wei := VaultRuns.toWei_val (RawTransaction.parseOutput_amount_lt accepts.parsed)
    have room : w.token.totalSupply.val + (toWei amountSats).val < 2 ^ 256 := by
      have := accepts.room
      omega
    obtain ⟨token, minted⟩ := mint_accepted conserved nonzero room
    have matched := (scriptMatchesP2tr_iff width).mpr accepts.covenant
    have included : verifyMerkleProof (doubleSha256 sha) (doubleSha256 sha args.rawTx)
        args.merkleProof args.txPos (w.headers.merkleRoots args.blockHeight) = true := by
      rw [verifyMerkleProof_iff, hashPair_double]
      exact accepts.included
    have unspent : w.vault.spentTxids (txidKey (doubleSha256 sha args.rawTx)) = false :=
      accepts.unspent
    have root := HeaderStore.getMerkleRoot_of_stored accepts.stored
    have amount : args.amountSats = amountSats := by rw [DepositArgs.amountSats, accepts.parsed]
    refine ⟨deposited sha w args token, ?_⟩
    simp [deposit, deposited, DepositArgs.txid, assert, accepts.fresh, HeaderStore.isHeaderStored,
      accepts.stored, root, unspent, included, accepts.parsed, amount, accepts.positive, matched,
      minted]

end PrivateBtc.Contracts.DepositTerms
