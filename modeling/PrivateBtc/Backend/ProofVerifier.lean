/- PrivateBtc/Backend/ProofVerifier
   digest: The eight checks of a withdrawal proof, read from the vault's row. -/

import PrivateBtc.Backend.CryptoService
import PrivateBtc.Backend.Database

set_option autoImplicit false
set_option relaxedAutoImplicit false

namespace PrivateBtc.Backend.ProofVerifier

open Library Library.JsText
open CryptoService Database

structure WithdrawProof where
  vaultId : Text
  randomness : Text
  ownerAddress : Text

structure Checks where
  vaultExists : Bool := false
  ownerMatch : Bool := false
  commitmentMatch : Bool := false
  nullifierMatch : Bool := false
  nullifierUnused : Bool := false
  vaultActive : Bool := false
  timeLockPassed : Bool := false
  onChainConfirmed : Bool := false

def Checks.entries (checks : Checks) : List (String × Bool) :=
  [("vaultExists", checks.vaultExists), ("ownerMatch", checks.ownerMatch),
    ("commitmentMatch", checks.commitmentMatch), ("nullifierMatch", checks.nullifierMatch),
    ("nullifierUnused", checks.nullifierUnused), ("vaultActive", checks.vaultActive),
    ("timeLockPassed", checks.timeLockPassed), ("onChainConfirmed", checks.onChainConfirmed)]

def Checks.failed (checks : Checks) : List String :=
  (checks.entries.filter fun entry => !entry.2).map Prod.fst

/-- The payload of the signed proof token and the second it expires at. -/
structure ProofToken where
  vaultId : Text
  commitment : Text
  nullifierHash : Option Text
  ownerAddress : Text
  expiresAt : Nat
  deriving DecidableEq

structure VerificationResult where
  valid : Bool
  reason : Option String
  checks : Checks
  proofToken : Option ProofToken

def nullifierUsed (db : Db) (nullifierHash : Text) : Bool :=
  (db.nullifiers.find? fun row => row.nullifierHash == nullifierHash).isSome

/-- Checks 2 to 7. -/
def checkVault (crypto : Crypto) (db : Db) (nowSecs : Nat) (proof : WithdrawProof)
    (vault : VaultRow) : Checks where
  vaultExists := true
  ownerMatch := toLowerCase vault.ownerAddress == toLowerCase proof.ownerAddress
  commitmentMatch :=
    match decryptAmount crypto vault.encryptedAmount vault.salt with
    | .ok amountSats =>
        verifyCommitment crypto (toText 10 amountSats) proof.randomness vault.commitment
    | .error _ => false
  nullifierMatch :=
    match vault.nullifierHash with
    | some nullifierHash =>
        verifyNullifier crypto vault.commitment proof.randomness nullifierHash
    | none => false
  nullifierUnused :=
    match vault.nullifierHash with
    | some nullifierHash => !nullifierUsed db nullifierHash
    | none => true
  vaultActive := vault.status == .active
  timeLockPassed := vault.unlockAt ≤ nowSecs

/-- The answer once the chain has said whether the commitment is registered. -/
def conclude (vault : VaultRow) (checks : Checks) (onChainConfirmed : Bool) (nowSecs : Nat) :
    VerificationResult :=
  let checks := { checks with onChainConfirmed }
  if checks.failed.isEmpty then
    { valid := true
      reason := none
      checks
      proofToken := some ⟨vault.id, vault.commitment, vault.nullifierHash, vault.ownerAddress,
        nowSecs + 600⟩ }
  else
    { valid := false
      reason := some ("Failed checks: " ++ ", ".intercalate checks.failed)
      checks
      proofToken := none }

def verifyWithdrawProof (crypto : Crypto) (db : Db) (nowSecs : Nat) (onChainConfirmed : Bool)
    (proof : WithdrawProof) : VerificationResult :=
  match vaultById db proof.vaultId with
  | some vault =>
      conclude vault (checkVault crypto db nowSecs proof vault) onChainConfirmed nowSecs
  | none => ⟨false, some "Vault not found", {}, none⟩

/-- Only the chain's answer is added to the checks made before it was asked. -/
theorem verifyWithdrawProof_checks (crypto : Crypto) (db : Db) (nowSecs : Nat)
    (onChainConfirmed : Bool) (proof : WithdrawProof) (vault : VaultRow)
    (found : vaultById db proof.vaultId = some vault) :
    (verifyWithdrawProof crypto db nowSecs onChainConfirmed proof).checks =
      { checkVault crypto db nowSecs proof vault with onChainConfirmed } := by
  rw [verifyWithdrawProof, found]
  dsimp only [conclude]
  split_ifs <;> rfl

/-- A valid answer is one with all eight checks passed. -/
theorem conclude_valid (vault : VaultRow) (checks : Checks) (onChainConfirmed : Bool)
    (nowSecs : Nat) :
    (conclude vault checks onChainConfirmed nowSecs).valid = true ↔
      ∀ entry ∈ ({ checks with onChainConfirmed } : Checks).entries, entry.2 = true := by
  dsimp only [conclude]
  split_ifs with empty
  · simpa [Checks.failed, List.filter_eq_nil_iff] using empty
  · simpa [Checks.failed, List.filter_eq_nil_iff] using empty

end PrivateBtc.Backend.ProofVerifier
