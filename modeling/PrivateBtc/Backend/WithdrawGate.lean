/- PrivateBtc/Backend/WithdrawGate
   digest: The guards of the withdraw route beside the checks of the proof verifier. -/

import PrivateBtc.Backend.Http
import PrivateBtc.Backend.ProofVerifier

set_option autoImplicit false
set_option relaxedAutoImplicit false

namespace PrivateBtc.Backend.WithdrawGate

open Library Library.JsText Library.Outcome
open CryptoService Database Http ProofVerifier

structure WithdrawBody where
  headers : Headers
  secret : Option Text
  nullifierHash : Option Text
  bitcoinAddress : Option Text

structure WithdrawRequest where
  secret : Text
  nullifierHash : Text
  bitcoinAddress : Text
deriving Inhabited

def WithdrawBody.validate (body : WithdrawBody) : Except Rejection WithdrawRequest := do
  validateBody body.headers [("secret", body.secret.map .text),
    ("nullifier_hash", body.nullifierHash.map .text),
    ("bitcoin_address", body.bitcoinAddress.map .text)]
  pure ⟨body.secret.getD [], body.nullifierHash.getD [], body.bitcoinAddress.getD []⟩

/-- The arguments of `StarknetService.withdraw`. -/
structure WithdrawCall where
  nullifierHash : Text
  proof : List Text
  recipient : Text
  amount : Int
  deriving DecidableEq

inductive Admission where
  | retry (request : WithdrawRequest) (vault : VaultRow) (txHash : Text)
  | submit (request : WithdrawRequest) (vault : VaultRow) (call : WithdrawCall)

def tb1 : Text := ['t', 'b', '1']

/-- The route up to the Starknet call: the proof step between the guards fails without effect. -/
def withdrawGate (senderAddress : Option Text) (crypto : Crypto) (db : Db) (body : WithdrawBody) :
    Except Rejection Admission := do
  let request ← body.validate
  refuse (!tb1.isPrefixOf request.bitcoinAddress) 400
    "Invalid Bitcoin address. Must be a Signet testnet address (starts with tb1)"
  refuse (some request.bitcoinAddress == senderAddress) 400
    ("Cannot withdraw to the vault's own address (" ++ String.ofList request.bitcoinAddress ++
      "). Please enter a different Bitcoin address where you want to receive your funds.")
  match vaultByNullifier db request.nullifierHash with
  | none => throw ⟨404, "Vault not found for this nullifier"⟩
  | some vault =>
      refuse (vault.status == .withdrawn) 400
        "Vault is already fully withdrawn. Both Starknet and Bitcoin payouts completed."
      refuse (vault.status != .active && vault.withdrawTxHash.isNone) 400
        s!"Vault is {vault.status.text} — cannot withdraw"
      match vault.withdrawTxHash with
      | some txHash => pure (.retry request vault txHash)
      | none =>
          let amountSats ← internalError (decryptAmount crypto vault.encryptedAmount vault.salt)
          refuse (vault.ownerAddress == ['0', 'x', '0'] || !isValidAddress vault.ownerAddress) 400
            "Invalid owner address in vault record"
          pure (.submit request vault
            ⟨request.nullifierHash, [request.nullifierHash], vault.ownerAddress, amountSats⟩)

/-- What the route asks of a request and a vault before it submits. -/
structure Admitted (senderAddress : Option Text) (crypto : Crypto) (db : Db)
    (request : WithdrawRequest) (vault : VaultRow) : Prop where
  signet : tb1.isPrefixOf request.bitcoinAddress = true
  foreign : some request.bitcoinAddress ≠ senderAddress
  found : vaultByNullifier db request.nullifierHash = some vault
  first : vault.withdrawTxHash = none
  active : vault.status = .active
  readable : ∃ amountSats, decryptAmount crypto vault.encryptedAmount vault.salt = .ok amountSats
  owner : isValidAddress vault.ownerAddress = true

/-- What only the verifier asks: the secret opens the vault, once, after its lock. -/
structure SecretFits (crypto : Crypto) (db : Db) (nowSecs : Nat) (request : WithdrawRequest)
    (vault : VaultRow) : Prop where
  commitment : ∃ amountSats, decryptAmount crypto vault.encryptedAmount vault.salt = .ok amountSats ∧
    verifyCommitment crypto (toText 10 amountSats) request.secret vault.commitment = true
  nullifier : verifyNullifier crypto vault.commitment request.secret request.nullifierHash = true
  unused : nullifierUsed db request.nullifierHash = false
  unlocked : vault.unlockAt ≤ nowSecs

/-- The five checks that the two paths have in common by purpose. -/
def Passes (checks : Checks) : Prop :=
  checks.commitmentMatch = true ∧ checks.nullifierMatch = true ∧ checks.nullifierUnused = true ∧
    checks.vaultActive = true ∧ checks.timeLockPassed = true

theorem validAddress_ne_zero {address : Text} (valid : isValidAddress address = true) :
    address ≠ ['0', 'x', '0'] := by
  rintro rfl
  cases valid

/-- What the route asks on either way, of the request and of the vault it names. -/
structure Screens (senderAddress : Option Text) (db : Db) (body : WithdrawBody)
    (request : WithdrawRequest) (vault : VaultRow) : Prop where
  valid : body.validate = .ok request
  signet : tb1.isPrefixOf request.bitcoinAddress = true
  foreign : some request.bitcoinAddress ≠ senderAddress
  found : vaultByNullifier db request.nullifierHash = some vault

/-- The two ways through the gate. -/
inductive Opens (senderAddress : Option Text) (crypto : Crypto) (db : Db) (body : WithdrawBody) :
    Admission → Prop
  | retry {request : WithdrawRequest} {vault : VaultRow} {txHash : Text}
      (screens : Screens senderAddress db body request vault)
      (recorded : vault.withdrawTxHash = some txHash) :
      Opens senderAddress crypto db body (.retry request vault txHash)
  | submit {request : WithdrawRequest} {vault : VaultRow} {amountSats : Int}
      (screens : Screens senderAddress db body request vault) (first : vault.withdrawTxHash = none)
      (active : vault.status = .active)
      (decrypted : decryptAmount crypto vault.encryptedAmount vault.salt = .ok amountSats)
      (owner : isValidAddress vault.ownerAddress = true) :
      Opens senderAddress crypto db body (.submit request vault
        ⟨request.nullifierHash, [request.nullifierHash], vault.ownerAddress, amountSats⟩)

theorem withdrawGate_opens {senderAddress : Option Text} {crypto : Crypto} {db : Db}
    {body : WithdrawBody} {admission : Admission}
    (gate : withdrawGate senderAddress crypto db body = .ok admission) :
    Opens senderAddress crypto db body admission := by
  simp only [withdrawGate, bind_eq_ok, refuse_ok] at gate
  obtain ⟨request, valid, _, signet, _, foreign, gate⟩ := gate
  cases found : vaultByNullifier db request.nullifierHash with
  | none =>
      rw [found] at gate
      cases gate
  | some vault =>
      have screens : Screens senderAddress db body request vault :=
        ⟨valid, by simpa using signet, by simpa using foreign, found⟩
      simp only [found, bind_eq_ok, refuse_ok] at gate
      obtain ⟨_, -, _, active, gate⟩ := gate
      cases first : vault.withdrawTxHash with
      | some txHash =>
          simp only [first, pure_eq_ok, Except.ok.injEq] at gate
          subst gate
          exact .retry screens first
      | none =>
          simp only [first, bind_eq_ok, refuse_ok, internalError_ok, pure_eq_ok,
            Except.ok.injEq] at gate
          obtain ⟨amountSats, decrypted, _, owner, rfl⟩ := gate
          refine .submit screens first ?_ decrypted ?_
          · simpa [first] using active
          · simpa using (Bool.or_eq_false_iff.mp owner).2

/-- The route submits exactly for the admitted requests. -/
theorem withdrawGate_submit (senderAddress : Option Text) (crypto : Crypto) (db : Db)
    (body : WithdrawBody) (request : WithdrawRequest) (vault : VaultRow) :
    (∃ call, withdrawGate senderAddress crypto db body = .ok (.submit request vault call)) ↔
      body.validate = .ok request ∧ Admitted senderAddress crypto db request vault := by
  constructor
  · rintro ⟨call, submitted⟩
    cases withdrawGate_opens submitted with
    | submit screens first active decrypted owner =>
        exact ⟨screens.valid, screens.signet, screens.foreign, screens.found, first, active,
          ⟨_, decrypted⟩, owner⟩
  · rintro ⟨valid, admitted⟩
    obtain ⟨amountSats, decrypted⟩ := admitted.readable
    refine ⟨⟨request.nullifierHash, [request.nullifierHash], vault.ownerAddress, amountSats⟩, ?_⟩
    simp [withdrawGate, valid, refuse, admitted.signet, admitted.foreign, admitted.found,
      admitted.active, admitted.first, decrypted, internalError,
      validAddress_ne_zero admitted.owner, admitted.owner]

/-- A retry is for a screened request and the hash that its vault records. -/
theorem withdrawGate_retry {senderAddress : Option Text} {crypto : Crypto} {db : Db}
    {body : WithdrawBody} {request : WithdrawRequest} {vault : VaultRow} {txHash : Text}
    (retried : withdrawGate senderAddress crypto db body = .ok (.retry request vault txHash)) :
    Screens senderAddress db body request vault ∧ vault.withdrawTxHash = some txHash := by
  cases withdrawGate_opens retried with
  | retry screens recorded => exact ⟨screens, recorded⟩

theorem Screens.member {senderAddress : Option Text} {db : Db} {body : WithdrawBody}
    {request : WithdrawRequest} {vault : VaultRow}
    (screens : Screens senderAddress db body request vault) :
    vault ∈ db.vaults.rows ∧ vault.nullifierHash = some request.nullifierHash := by
  obtain ⟨member, named⟩ := Table.find?_some screens.found
  exact ⟨member, by simpa using named⟩

theorem vaultById_of_nullifier {db : Db} {nullifierHash : Text} {vault : VaultRow}
    (found : vaultByNullifier db nullifierHash = some vault) :
    vaultById db vault.id = some vault ∧ vault.nullifierHash = some nullifierHash := by
  obtain ⟨member, named⟩ := Table.find?_some found
  exact ⟨vaultById_of_mem member rfl, by simpa using named⟩

/-- The verifier's five checks on the vault that a request names. -/
theorem passes_iff {senderAddress : Option Text} {crypto : Crypto} {db : Db}
    {request : WithdrawRequest} {vault : VaultRow}
    (admitted : Admitted senderAddress crypto db request vault) (nowSecs : Nat)
    (onChainConfirmed : Bool) (ownerAddress : Text) :
    Passes (verifyWithdrawProof crypto db nowSecs onChainConfirmed
      ⟨vault.id, request.secret, ownerAddress⟩).checks ↔
    SecretFits crypto db nowSecs request vault := by
  obtain ⟨byId, named⟩ := vaultById_of_nullifier admitted.found
  obtain ⟨amountSats, decrypted⟩ := admitted.readable
  rw [verifyWithdrawProof_checks crypto db nowSecs onChainConfirmed _ vault byId]
  simp only [Passes, checkVault, decrypted, named, admitted.active, beq_self_eq_true, true_and,
    Bool.not_eq_true', decide_eq_true_eq]
  constructor
  · rintro ⟨commitment, nullifier, unused, unlocked⟩
    exact ⟨⟨amountSats, decrypted, commitment⟩, nullifier, unused, unlocked⟩
  · rintro ⟨⟨amount, read, commitment⟩, nullifier, unused, unlocked⟩
    rw [decrypted, Except.ok.injEq] at read
    subst read
    exact ⟨commitment, nullifier, unused, unlocked⟩

/-- For every database, time and request: what the route submits passes the verifier's
checks exactly when the request is not admitted or its secret fits the vault it names. -/
theorem withdraw_gate_iff (senderAddress : Option Text) (crypto : Crypto) (db : Db)
    (nowSecs : Nat) (onChainConfirmed : Bool) (ownerAddress : Text) (body : WithdrawBody) :
    (∀ request vault call,
      withdrawGate senderAddress crypto db body = .ok (.submit request vault call) →
      Passes (verifyWithdrawProof crypto db nowSecs onChainConfirmed
        ⟨vault.id, request.secret, ownerAddress⟩).checks) ↔
    (∀ request vault, body.validate = .ok request →
      ¬ Admitted senderAddress crypto db request vault ∨
        SecretFits crypto db nowSecs request vault) := by
  constructor
  · intro gate request vault valid
    by_cases admitted : Admitted senderAddress crypto db request vault
    · obtain ⟨call, submitted⟩ :=
        (withdrawGate_submit senderAddress crypto db body request vault).mpr ⟨valid, admitted⟩
      exact Or.inr ((passes_iff admitted nowSecs onChainConfirmed ownerAddress).mp
        (gate request vault call submitted))
    · exact Or.inl admitted
  · intro fits request vault call submitted
    obtain ⟨valid, admitted⟩ :=
      (withdrawGate_submit senderAddress crypto db body request vault).mp ⟨call, submitted⟩
    rcases fits request vault valid with refused | secretFits
    · exact absurd admitted refused
    · exact (passes_iff admitted nowSecs onChainConfirmed ownerAddress).mpr secretFits

section Guessed

def zeroIv : CryptoService.Iv := ⟨List.replicate 12 0, rfl⟩

/-- An active vault of 10^14 wei whose nullifier is a published Pedersen pair. -/
def lockedVault : VaultRow where
  id := ['v', '1']
  ownerAddress := '0' :: 'x' :: List.replicate 64 '1'
  commitment := hexText plainLeft.val
  encryptedAmount := encryptAmount plainCrypto zeroIv 100000000000000 ['0', '1']
  salt := ['0', '1']
  randomnessHint := ['0', 'x', '1']
  lockDurationDays := 30
  createdAt := 1700000000
  unlockAt := 1702592000
  status := .active
  depositTxHash := some ('0' :: 'x' :: List.replicate 64 '2')
  nullifierHash := some (hexText plainHash.val)

def lockedDb : Db :=
  { Database.empty with vaults := ⟨[lockedVault], by decide +kernel, List.pairwise_singleton _ _⟩ }

/-- A secret that is no number at all, an hour after the deposit. -/
def guess : WithdrawBody where
  headers := ⟨applicationJson, false⟩
  secret := some ['g', 'u', 'e', 's', 's']
  nullifierHash := some (hexText plainHash.val)
  bitcoinAddress := some ['t', 'b', '1', 'q', 'x']

/-- The route submits although the secret is wrong and the lock has not passed. -/
theorem guess_submitted :
    (∃ request vault call,
      withdrawGate none plainCrypto lockedDb guess = .ok (.submit request vault call) ∧
      verifyNullifier plainCrypto vault.commitment request.secret request.nullifierHash = false ∧
      1700003600 < vault.unlockAt) ∧
    ¬ ∀ request vault call,
      withdrawGate none plainCrypto lockedDb guess = .ok (.submit request vault call) →
      Passes (verifyWithdrawProof plainCrypto lockedDb 1700003600 true
        ⟨vault.id, request.secret, lockedVault.ownerAddress⟩).checks := by
  have submitted : withdrawGate none plainCrypto lockedDb guess =
      .ok (.submit ⟨['g', 'u', 'e', 's', 's'], hexText plainHash.val, ['t', 'b', '1', 'q', 'x']⟩
        lockedVault ⟨hexText plainHash.val, [hexText plainHash.val], lockedVault.ownerAddress,
          100000000000000⟩) := rfl
  have wrong : verifyNullifier plainCrypto lockedVault.commitment ['g', 'u', 'e', 's', 's']
      (hexText plainHash.val) = false := by decide +kernel
  refine ⟨⟨_, _, _, submitted, wrong, by decide⟩, ?_⟩
  intro passes
  obtain ⟨-, admitted⟩ := (withdrawGate_submit _ _ _ _ _ _).mp ⟨_, submitted⟩
  have fits := (passes_iff admitted 1700003600 true _).mp (passes _ _ _ submitted)
  exact Bool.false_ne_true (wrong.symm.trans fits.nullifier)

end Guessed

end PrivateBtc.Backend.WithdrawGate
