/- PrivateBtc/Contracts/Vault
   digest: The vault's entry points over the token and the header store, and runs of calls. -/

import PrivateBtc.Contracts.HeaderStore
import PrivateBtc.Contracts.MerkleProof
import PrivateBtc.Contracts.MockBtc
import PrivateBtc.Contracts.RawTransaction
import PrivateBtc.Library.Transactional

set_option autoImplicit false
set_option relaxedAutoImplicit false

namespace PrivateBtc.Contracts.Vault

open Library Library.Outcome Corelib
open Hashing (Digest HashFunction doubleSha256 pushU32Be)
open MerkleProof (verifyMerkleProof)
open RawTransaction (parseOutput scriptMatchesP2tr)
open MockBtc (Token share)
open HeaderStore (Headers)

inductive Event where
  | deposit (commitment : Felt) (amountSats : Nat) (blockHeight : UInt64)
  | withdrawal (nullifier : Felt) (recipient : ContractAddress) (amount : U256)
  deriving DecidableEq

structure VaultStorage where
  nullifiers : Felt → Bool
  commitments : Felt → Bool
  vaultTapkey : Digest
  spentTxids : Nat × Nat → Bool
  events : List Event

/-- The three contracts, each deployed once; the vault was constructed with the other two. -/
structure World where
  address : ContractAddress
  vault : VaultStorage
  token : Token
  headers : Headers

/-- Four words as a `u128`; the multipliers are the source's. -/
def packU128 (w0 w1 w2 w3 : UInt32) : Nat :=
  w0.toNat * 0x100000000000000000000 + w1.toNat * 0x1000000000000 + w2.toNat * 0x100000000 +
    w3.toNat

/-- The key of `spent_txids`. -/
def txidKey (txid : Digest) : Nat × Nat :=
  (packU128 txid.w0 txid.w1 txid.w2 txid.w3, packU128 txid.w4 txid.w5 txid.w6 txid.w7)

def tapkeyBytes (self : VaultStorage) : List UInt8 := self.vaultTapkey.toList.foldl pushU32Be []

structure DepositArgs where
  commitment : Felt
  blockHeight : UInt64
  txPos : UInt64
  rawTx : List UInt8
  voutIndex : UInt32
  merkleProof : List Digest

structure WithdrawArgs where
  nullifier : Felt
  proof : List Felt
  recipient : ContractAddress
  amount : U256

/-- One satoshi is 10^10 units of the token. -/
def toWei (amountSats : Nat) : U256 := Fin.ofNat _ (amountSats * 10000000000)

def deposit (sha : HashFunction) (self : World) (args : DepositArgs) : Except String World := do
  assert (!self.vault.commitments args.commitment) "Commitment already used"
  assert (HeaderStore.isHeaderStored self.headers args.blockHeight) "Block header not relayed yet"
  let merkleRoot ← HeaderStore.getMerkleRoot self.headers args.blockHeight
  let txid := doubleSha256 sha args.rawTx
  assert (!self.vault.spentTxids (txidKey txid)) "Bitcoin txid already minted"
  assert (verifyMerkleProof (doubleSha256 sha) txid args.merkleProof args.txPos merkleRoot)
    "Invalid Bitcoin Merkle proof"
  let (amountSats, script) ← parseOutput args.rawTx args.voutIndex.toNat
  assert (0 < amountSats) "Zero amount in tx output"
  let paysCovenant ← scriptMatchesP2tr script (tapkeyBytes self.vault)
  assert paysCovenant "Output not paying covenant P2TR"
  let vault := { self.vault with
    commitments := Function.update self.vault.commitments args.commitment true
    spentTxids := Function.update self.vault.spentTxids (txidKey txid) true }
  let token ← MockBtc.mint self.token self.address (toWei amountSats)
  let event := Event.deposit args.commitment amountSats args.blockHeight
  pure { self with token, vault := { vault with events := vault.events ++ [event] } }

def withdraw (self : World) (args : WithdrawArgs) : Except String World := do
  assert (!self.vault.nullifiers args.nullifier) "Nullifier already used"
  assert (0 < args.proof.length) "Invalid proof length"
  assert (args.amount ≤ MockBtc.balanceOf self.token self.address) "Insufficient vault balance"
  let vault := { self.vault with
    nullifiers := Function.update self.vault.nullifiers args.nullifier true }
  let (token, success) ← MockBtc.transfer self.token self.address args.recipient args.amount
  assert success "Transfer failed"
  let event := Event.withdrawal args.nullifier args.recipient args.amount
  pure { self with token, vault := { vault with events := vault.events ++ [event] } }

def getTotalStaked (self : World) : U256 := MockBtc.balanceOf self.token self.address

def isCommitmentRegistered (self : World) (commitment : Felt) : Bool :=
  self.vault.commitments commitment

/-- The calls that accounts can make to the three contracts. -/
inductive Call where
  | deposit (caller : ContractAddress) (args : DepositArgs)
  | withdraw (caller : ContractAddress) (args : WithdrawArgs)
  | storeHeader (caller : ContractAddress) (height : UInt64) (merkleRoot : Digest)
  | transfer (caller recipient : ContractAddress) (amount : U256)
  | approve (caller spender : ContractAddress) (amount : U256)
  | transferFrom (caller sender recipient : ContractAddress) (amount : U256)
  | mint (caller recipient : ContractAddress) (amount : U256)

def Call.caller : Call → ContractAddress
  | .deposit caller _ | .withdraw caller _ | .storeHeader caller _ _ | .transfer caller _ _
  | .approve caller _ _ | .transferFrom caller _ _ _ | .mint caller _ _ => caller

def execute (sha : HashFunction) (self : World) : Call → Except String World
  | .deposit _ args => deposit sha self args
  | .withdraw _ args => withdraw self args
  | .storeHeader caller height merkleRoot => do
      pure { self with headers := ← HeaderStore.storeHeader self.headers caller height merkleRoot }
  | .transfer caller recipient amount => do
      pure { self with token := (← MockBtc.transfer self.token caller recipient amount).1 }
  | .approve caller spender amount => do
      pure { self with token := (← MockBtc.approve self.token caller spender amount).1 }
  | .transferFrom caller sender recipient amount => do
      pure { self with
        token := (← MockBtc.transferFrom self.token caller sender recipient amount).1 }
  | .mint _ recipient amount => do
      pure { self with token := ← MockBtc.mint self.token recipient amount }

/-- The constructors, the token's first: it mints to its first holder. -/
def deploy (address : ContractAddress) (vaultTapkey : Digest) (relayer holder : ContractAddress) :
    Except String World := do
  let token ← MockBtc.constructor holder
  pure { address, token, headers := HeaderStore.constructor relayer,
         vault := ⟨fun _ => false, fun _ => false, vaultTapkey, fun _ => false, []⟩ }

/-- A finished deployment; no contract has the address zero. -/
structure Genesis where
  world : World
  vaultTapkey : Digest
  relayer : ContractAddress
  holder : ContractAddress
  address_ne_zero : world.address ≠ 0
  deployed : deploy world.address vaultTapkey relayer holder = .ok world

/-- The amount that a deposit call's transaction carries at the named output. -/
def DepositArgs.amountSats (args : DepositArgs) : Nat :=
  match parseOutput args.rawTx args.voutIndex.toNat with
  | .ok (amountSats, _) => amountSats
  | .error _ => 0

def DepositArgs.txid (sha : HashFunction) (args : DepositArgs) : Digest :=
  doubleSha256 sha args.rawTx

/-- The state after an accepted deposit. -/
def deposited (sha : HashFunction) (self : World) (args : DepositArgs) (token : Token) : World :=
  { self with
    token
    vault := { self.vault with
      commitments := Function.update self.vault.commitments args.commitment true
      spentTxids := Function.update self.vault.spentTxids (txidKey (args.txid sha)) true
      events := self.vault.events ++
        [.deposit args.commitment args.amountSats args.blockHeight] } }

def withdrawn (self : World) (args : WithdrawArgs) (token : Token) : World :=
  { self with
    token
    vault := { self.vault with
      nullifiers := Function.update self.vault.nullifiers args.nullifier true
      events := self.vault.events ++
        [.withdrawal args.nullifier args.recipient args.amount] } }

theorem deposit_ok {sha : HashFunction} {self self' : World} {args : DepositArgs}
    (accepted : deposit sha self args = .ok self') :
    ∃ script token, self.vault.commitments args.commitment = false ∧
      self.headers.stored args.blockHeight = true ∧
      self.vault.spentTxids (txidKey (args.txid sha)) = false ∧
      verifyMerkleProof (doubleSha256 sha) (args.txid sha) args.merkleProof args.txPos
        (self.headers.merkleRoots args.blockHeight) = true ∧
      parseOutput args.rawTx args.voutIndex.toNat = .ok (args.amountSats, script) ∧
      0 < args.amountSats ∧
      scriptMatchesP2tr script (tapkeyBytes self.vault) = .ok true ∧
      MockBtc.mint self.token self.address (toWei args.amountSats) = .ok token ∧
      self' = deposited sha self args token := by
  simp only [deposit, bind_eq_ok, assert_ok, pure_eq_ok, Except.ok.injEq, Prod.exists] at accepted
  obtain ⟨_, fresh, _, stored, root, found, _, unspent, _, included, sats, script, parsed, _,
    positive, paysCovenant, matched, _, pays, token, minted, rfl⟩ := accepted
  rw [HeaderStore.getMerkleRoot_of_stored stored, Except.ok.injEq] at found
  have amount : args.amountSats = sats := by
    rw [DepositArgs.amountSats, parsed]
  subst found amount pays
  refine ⟨script, token, by simpa using fresh, stored, by simpa [DepositArgs.txid] using unspent,
    included, parsed, by simpa using positive, matched, minted, rfl⟩

theorem withdraw_ok {self self' : World} {args : WithdrawArgs}
    (accepted : withdraw self args = .ok self') :
    ∃ token, self.vault.nullifiers args.nullifier = false ∧ args.proof ≠ [] ∧
      args.amount ≤ self.token.balances self.address ∧
      MockBtc.InternalFunctions.transfer self.token self.address args.recipient args.amount =
        .ok token ∧
      self' = withdrawn self args token := by
  simp only [withdraw, MockBtc.transfer, bind_eq_ok, assert_ok, pure_eq_ok, Except.ok.injEq,
    Prod.exists, Prod.mk.injEq] at accepted
  obtain ⟨_, fresh, _, nonempty, _, enough, token, success, ⟨moved, transferred, rfl, rfl⟩, _, _,
    rfl⟩ := accepted
  refine ⟨moved, by simpa using fresh, ?_, of_decide_eq_true enough,
    transferred, rfl⟩
  intro empty
  simp [empty] at nonempty

end PrivateBtc.Contracts.Vault
