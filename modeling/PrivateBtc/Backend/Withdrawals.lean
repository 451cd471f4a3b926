/- PrivateBtc/Backend/Withdrawals
   digest: The two withdrawal paths: the route with its immediate payout, and proof then execute. -/

import PrivateBtc.Backend.Payments
import PrivateBtc.Backend.Starknet
import PrivateBtc.Backend.WithdrawGate

set_option autoImplicit false
set_option relaxedAutoImplicit false

namespace PrivateBtc.Backend.Withdrawals

open Library Library.JsText Library.Outcome
open Authorizations CryptoService Database Http Payments ProofVerifier Starknet WithdrawGate

/-- A turn that may also hand a payment for an authorization to the mempool. -/
structure PayTurn (Task Answer : Type) extends Turn Task Answer where
  sends : Option (Text × Payment) := none

/-- The variables of the withdraw handler that live across the race. -/
structure Withdrawing where
  request : WithdrawRequest
  vaultId : Text
  txHash : Text
  isRetry : Bool
deriving Inhabited

/-- An orphaned payout has lost the race and runs on without its handler. -/
inductive WithdrawTask where
  | executing (request : WithdrawRequest) (vault : VaultRow) (call : WithdrawCall)
  | racing (withdrawing : Withdrawing) (payout : Payout)
  | orphaned (payout : Payout)

structure WithdrawAnswer where
  txHash : Text
  bitcoinTxid : Option Text
  bitcoinSendError : Option String
  isRetry : Bool

abbrev WithdrawTurn := PayTurn WithdrawTask WithdrawAnswer

/-- Wei to satoshis: `Math.floor(Number(amountSats) / 1e10)`. -/
def actualSats (amountSats : Int) : Int :=
  ((Double.ofInt amountSats).divBy 10000000000).floor.toBigInt.getD 0

variable (cfg : Config) (moment : Moment)

/-- SELECT encrypted_amount FROM vaults WHERE id = ? -/
def encryptedAmountOf (db : Db) (vaultId : Text) : Text :=
  match vaultById db vaultId with
  | some vault => vault.encryptedAmount
  | none => []

/-- Steps 6 and 7; each statement is written before the next one is tried. -/
def closeVault (db : Db) (withdrawing : Withdrawing) (answer : WithdrawAnswer) : WithdrawTurn :=
  if withdrawing.isRetry then { toTurn := .reply db answer }
  else
    match updateVaults (fun v => v.id == withdrawing.vaultId)
        (fun v => { v with
          status := .withdrawn
          withdrawTxHash := some withdrawing.txHash
          bitcoinWithdrawalAddress := some withdrawing.request.bitcoinAddress }) db with
    | .error message => { toTurn := .reject db ⟨500, message⟩ }
    | .ok db =>
        match insertTransaction
            { id := moment.random.uuid, vaultId := withdrawing.vaultId, txHash := withdrawing.txHash,
              type := .withdraw, amountEncrypted := encryptedAmountOf db withdrawing.vaultId,
              timestamp := moment.nowSecs } db with
        | .error message => { toTurn := .reject db ⟨500, message⟩ }
        | .ok db => { toTurn := .reply db answer }

/-- The end of the handler once the race is decided; an empty txid counts as no result. -/
def finish (db : Db) (withdrawing : Withdrawing) (authId : Text) (result : Option Text)
    (sendError : Option String) : WithdrawTurn :=
  match result.filter fun txid => !txid.isEmpty with
  | some txid =>
      closeVault moment (writeStatus authId .completed moment.nowSecs (some txid) none db)
        withdrawing ⟨withdrawing.txHash, some txid, none, withdrawing.isRetry⟩
  | none => closeVault moment db withdrawing ⟨withdrawing.txHash, none, sendError, withdrawing.isRetry⟩

/-- The immediate attempt: it either waits in the race or has failed at once. -/
def attemptPayout (db : Db) (withdrawing : Withdrawing) (authId : Text) : WithdrawTurn :=
  let started := startPayout cfg authId moment.nowSecs db
  match started.progress with
  | .waiting payout => { toTurn := .wait started.db (.racing withdrawing payout) }
  | .settled result => finish moment started.db withdrawing authId result.toOption none

/-- Step 5: find or create the authorization, then attempt the payout. -/
def authorize (db : Db) (withdrawing : Withdrawing) : WithdrawTurn :=
  match vaultById db withdrawing.vaultId with
  | none => { toTurn := .reject db ⟨500, "Cannot read properties of undefined"⟩ }
  | some vault =>
      match decryptAmount cfg.crypto vault.encryptedAmount vault.salt with
      | .error message => { toTurn := .reject db ⟨500, message⟩ }
      | .ok amountSats =>
          match getAuthorizationByNullifier db withdrawing.request.nullifierHash with
          | none =>
              match createAuthorization
                  { vaultId := withdrawing.vaultId
                    nullifierHash := withdrawing.request.nullifierHash
                    starknetTxHash := withdrawing.txHash
                    bitcoinAddress := withdrawing.request.bitcoinAddress
                    amountSats := actualSats amountSats } moment.random.uuid moment.nowSecs db with
              | .error message => finish moment db withdrawing [] none (some message)
              | .ok db => attemptPayout cfg moment db withdrawing moment.random.uuid
          | some auth =>
              if auth.status = .failed then
                attemptPayout cfg moment (markStatus auth.id .pending moment.nowSecs db)
                  withdrawing auth.id
              else attemptPayout cfg moment db withdrawing auth.id

def withdraw (db : Db) (body : WithdrawBody) : WithdrawTurn :=
  match withdrawGate cfg.senderAddress cfg.crypto db body with
  | .error rejection => { toTurn := .reject db rejection }
  | .ok (.submit request vault call) => { toTurn := .wait db (.executing request vault call) }
  | .ok (.retry request vault txHash) => authorize cfg moment db ⟨request, vault.id, txHash, true⟩

/-- What `StarknetService.withdraw` has returned. -/
def afterWithdraw (db : Db) (request : WithdrawRequest) (vault : VaultRow) :
    Except ExecuteFailure Text → WithdrawTurn
  | .ok txHash => authorize cfg moment db ⟨request, vault.id, txHash, false⟩
  | .error failure =>
      { toTurn := .reject db ⟨500,
          executeMessage "Withdraw execution" ["balance is smaller", "insufficient"] failure⟩ }

def resumeRacing (nextRequest : Nat) (db : Db) (withdrawing : Withdrawing) (payout : Payout)
    (reply : MempoolReply) : Option WithdrawTurn := do
  let resumed ← resumePayout cfg moment.nowSecs nextRequest db payout reply
  match resumed.progress with
  | .waiting payout =>
      pure { toTurn := .wait resumed.db (.racing withdrawing payout)
             sends := resumed.sends.map fun payment => (payout.auth.id, payment) }
  | .settled result =>
      pure (finish moment resumed.db withdrawing payout.auth.id result.toOption none)

/-- The twenty seconds are over: the handler ends and the payout runs on. -/
def loseRace (db : Db) (withdrawing : Withdrawing) (payout : Payout) : WithdrawTurn :=
  let ended := finish moment db withdrawing payout.auth.id none none
  { ended with next := some (.orphaned payout) }

def resumeOrphaned (nextRequest : Nat) (db : Db) (payout : Payout) (reply : MempoolReply) :
    Option WithdrawTurn := do
  let resumed ← resumePayout cfg moment.nowSecs nextRequest db payout reply
  match resumed.progress with
  | .waiting payout =>
      pure { toTurn := .wait resumed.db (.orphaned payout)
             sends := resumed.sends.map fun payment => (payout.auth.id, payment) }
  | .settled _ => pure { db := resumed.db }

/-- The claims of the token are those it was issued with: a signature is not forged. -/
structure ExecuteBody where
  headers : Headers
  vaultId : Option Text
  proofToken : Option ProofToken
  txHash : Option Text

structure ExecutingWithdrawal where
  vaultId : Text
  nullifierHash : Option Text
  ownerAddress : Text
  encryptedAmount : Text

inductive ExecuteTask where
  | checking (vault : VaultRow) (checks : Checks)
  | waiting (txHash : Text) (attempt : Nat) (withdrawal : ExecutingWithdrawal)
  | event (txHash : Text) (withdrawal : ExecutingWithdrawal) (blockNumber : Nat)

inductive ExecuteAnswer where
  | verified (result : VerificationResult)
  | executed (txHash : Text) (blockNumber : Nat) (nullifierHash vaultId ownerAddress : Text)

abbrev ExecuteTurn := Turn ExecuteTask ExecuteAnswer

def verifyWithdraw (db : Db) (proof : WithdrawProof) : ExecuteTurn :=
  if proof.vaultId.isEmpty || proof.randomness.isEmpty || proof.ownerAddress.isEmpty then
    .reject db ⟨400, "Missing required fields: vaultId, randomness, ownerAddress"⟩
  else
    match vaultById db proof.vaultId with
    | none => .reject db ⟨400, "Vault not found"⟩
    | some vault =>
        .wait db (.checking vault (checkVault cfg.crypto db moment.nowSecs proof vault))

def afterCheck (db : Db) (vault : VaultRow) (checks : Checks) (registered : Bool) : ExecuteTurn :=
  let result := conclude vault checks registered moment.nowSecs
  if result.valid then .reply db (.verified result)
  else .reject db ⟨400, result.reason.getD ""⟩

def readToken (issued : List ProofToken) : Option ProofToken → Except Rejection ProofToken
  | none => .error ⟨401, "Invalid proof token"⟩
  | some token =>
      if token ∈ issued then
        if moment.nowSecs < token.expiresAt then .ok token
        else .error ⟨401, "Proof token expired — please re-verify"⟩
      else .error ⟨401, "Invalid proof token"⟩

def executeWithdraw (issued : List ProofToken) (db : Db) (body : ExecuteBody) : ExecuteTurn :=
  .orReject db
    (do
      validateBody body.headers [("vaultId", body.vaultId.map .text),
        ("proofToken", body.proofToken.map fun _ => .text ['t']), ("txHash", body.txHash.map .text)]
      validateTxHash (body.txHash.getD [])
      let vaultId := body.vaultId.getD []
      let token ← readToken moment issued body.proofToken
      refuse (token.vaultId != vaultId) 400 "Proof token vaultId does not match request vaultId"
      match vaultById db vaultId with
      | none => throw ⟨404, "Vault not found"⟩
      | some vault =>
          refuse (vault.status != .active) 400
            s!"Vault is {vault.status.text} — can only withdraw from active vault"
          pure ⟨vaultId, token.nullifierHash, token.ownerAddress, vault.encryptedAmount⟩)
    fun withdrawal => .wait db (.waiting (body.txHash.getD []) 1 withdrawal)

/-- The `catch` of execute. -/
def executeError : Thrown → Rejection
  | .notFound txHash => ⟨404, (Thrown.notFound txHash).message⟩
  | .reverted txHash => ⟨400, (Thrown.reverted txHash).message⟩
  | error => ⟨500, error.message⟩

def afterWithdrawReceipt (db : Db) (txHash : Text) (attempt : Nat)
    (withdrawal : ExecutingWithdrawal) (reply : Except String TransactionReceipt) : ExecuteTurn :=
  match waitOnce txHash attempt reply with
  | .confirmed receipt => .wait db (.event txHash withdrawal receipt.blockNumber)
  | .failed error => .reject db (executeError error)
  | .again attempt => .wait db (.waiting txHash attempt withdrawal)

/-- The transaction of execute. -/
def spend (txHash nullifierHash : Text) (withdrawal : ExecutingWithdrawal) (blockNumber : Nat) :
    Statement := fun db => do
  let db ← insertNullifier
    { nullifierHash, vaultId := withdrawal.vaultId, usedAt := moment.nowSecs,
      withdrawTxHash := txHash } db
  let db ← updateVaults (fun v => v.id == withdrawal.vaultId)
    (fun v => { v with
      status := .withdrawn
      withdrawTxHash := some txHash
      nullifierHash := some nullifierHash }) db
  insertTransaction
    { id := moment.random.uuid, vaultId := withdrawal.vaultId, txHash, type := .withdraw,
      amountEncrypted := withdrawal.encryptedAmount, blockNumber := some blockNumber,
      blockTimestamp := some 0, succeeded := true, timestamp := moment.nowSecs } db

def afterEvent (db : Db) (txHash : Text) (withdrawal : ExecutingWithdrawal) (blockNumber : Nat)
    (reply : Except String TransactionReceipt) : ExecuteTurn :=
  match getTransactionReceipt txHash reply with
  | .error error => .reject db (executeError error)
  | .ok receipt =>
      match withdrawal.nullifierHash with
      | none => .reject db ⟨500, "Cannot read properties of null (reading 'toLowerCase')"⟩
      | some nullifierHash =>
          if verifyWithdrawalEvent cfg.vaultContractAddress receipt nullifierHash then
            .commit db (internalError (spend moment txHash nullifierHash withdrawal blockNumber db))
              (.executed txHash blockNumber nullifierHash withdrawal.vaultId
                withdrawal.ownerAddress)
          else .reject db ⟨400, "Nullifier not found in withdrawal transaction on-chain"⟩

def resumeExecute (db : Db) : ExecuteTask → RpcReply → Option ExecuteTurn
  | .checking vault checks, .commitmentRegistered registered =>
      some (afterCheck moment db vault checks registered)
  | .waiting txHash attempt withdrawal, .receipt reply =>
      some (afterWithdrawReceipt db txHash attempt withdrawal reply)
  | .event txHash withdrawal blockNumber, .receipt reply =>
      some (afterEvent cfg moment db txHash withdrawal blockNumber reply)
  | _, _ => none

/-- What step 6 writes to its vault. -/
def closed (withdrawing : Withdrawing) (v : VaultRow) : VaultRow :=
  { v with
    status := .withdrawn
    withdrawTxHash := some withdrawing.txHash
    bitcoinWithdrawalAddress := some withdrawing.request.bitcoinAddress }

/-- Steps 6 and 7 end the handler; a retry writes nothing. -/
structure Closes (withdrawing : Withdrawing) (db : Db) (turn : WithdrawTurn) : Prop where
  apart : Apart db turn.db
  vaults : turn.db.vaults = db.vaults ∨ withdrawing.isRetry = false ∧
    turn.db.vaults.rows = db.vaults.rows.map fun v =>
      if v.id == withdrawing.vaultId then closed withdrawing v else v
  silent : turn.sends = none

theorem closeVault_closes (db : Db) (withdrawing : Withdrawing) (answer : WithdrawAnswer) :
    Closes withdrawing db (closeVault moment db withdrawing answer) ∧
      (closeVault moment db withdrawing answer).next = none := by
  unfold closeVault
  split_ifs with retry
  · exact ⟨⟨Apart.refl db, Or.inl rfl, rfl⟩, rfl⟩
  · have first : withdrawing.isRetry = false := by simpa using retry
    split
    · exact ⟨⟨Apart.refl db, Or.inl rfl, rfl⟩, rfl⟩
    · next db₁ moved =>
      obtain ⟨rows, apart⟩ := updateVaults_ok moved
      split
      · exact ⟨⟨apart, Or.inr ⟨first, rows⟩, rfl⟩, rfl⟩
      · next db₂ logged =>
        obtain ⟨kept, later⟩ := insertTransaction_ok logged
        exact ⟨⟨apart.trans later, Or.inr ⟨first, by
          show db₂.vaults.rows = _
          rw [kept, rows]
          rfl⟩, rfl⟩, rfl⟩

/-- The end of a handler whose payout gave no txid. -/
theorem finish_unpaid (db : Db) (withdrawing : Withdrawing) (authId : Text)
    (result : Option Text) (unpaid : (result.filter fun txid => !txid.isEmpty) = none)
    (sendError : Option String) :
    Closes withdrawing db (finish moment db withdrawing authId result sendError) ∧
      (finish moment db withdrawing authId result sendError).next = none := by
  unfold finish
  rw [unpaid]
  exact closeVault_closes moment db withdrawing _

theorem finish_paid (db : Db) (withdrawing : Withdrawing) (authId : Text) {txid : Text}
    (legible : txid.isEmpty = false) (sendError : Option String) :
    ∃ db₁, Completes authId db db₁ ∧
      Closes withdrawing db₁ (finish moment db withdrawing authId (some txid) sendError) ∧
      (finish moment db withdrawing authId (some txid) sendError).next = none := by
  unfold finish
  simp only [Option.filter, legible, Bool.not_false, if_true]
  exact ⟨_, Completes.of_writeStatus .., closeVault_closes moment _ withdrawing _⟩

/-- An attempt either waits in the race with the row of the authorization, or is over. -/
inductive Attempted (authId : Text) (withdrawing : Withdrawing) (db : Db) :
    WithdrawTurn → Prop where
  | racing {db' : Db} {auth : WithdrawalAuthorization} (marks : Marks {authId} db db')
      (found : getAuthorizationById db authId = some auth) :
      Attempted authId withdrawing db
        { toTurn := .wait db' (.racing withdrawing (.fetching auth)) }
  | ended {db₁ : Db} {turn : WithdrawTurn} (marks : Marks {authId} db db₁)
      (closes : Closes withdrawing db₁ turn) (ends : turn.next = none) :
      Attempted authId withdrawing db turn

theorem attemptPayout_attempted (db : Db) (withdrawing : Withdrawing) (authId : Text) :
    Attempted authId withdrawing db (attemptPayout cfg moment db withdrawing authId) := by
  have started := startPayout_started cfg authId moment.nowSecs db
  unfold attemptPayout
  generalize startPayout cfg authId moment.nowSecs db = turn at started
  cases started with
  | fetching marks found => exact .racing marks found
  | failed marks =>
      obtain ⟨closes, ends⟩ := finish_unpaid moment _ withdrawing authId none rfl none
      exact .ended marks closes ends

/-- Which authorization step 5 takes up, and on which database. -/
inductive Takes (withdrawing : Withdrawing) (db : Db) : Text → Db → Prop where
  | created {id : Text} {db' : Db} {params : AuthorizationParams} {nowSecs : Nat}
      (missing : getAuthorizationByNullifier db withdrawing.request.nullifierHash = none)
      (row : createAuthorization params id nowSecs db = .ok db')
      (hash : params.starknetTxHash = withdrawing.txHash) :
      Takes withdrawing db id db'
  | existing {auth : WithdrawalAuthorization} {db' : Db}
      (found : getAuthorizationByNullifier db withdrawing.request.nullifierHash = some auth)
      (marks : Marks {auth.id} db db') :
      Takes withdrawing db auth.id db'

/-- Step 5 gives up, or it takes up an authorization for an attempt. -/
inductive Authorized (withdrawing : Withdrawing) (db : Db) : WithdrawTurn → Prop where
  | given_up {turn : WithdrawTurn} (closes : Closes withdrawing db turn)
      (ends : turn.next = none) : Authorized withdrawing db turn
  | attempted {authId : Text} {db₁ : Db} {turn : WithdrawTurn} (takes : Takes withdrawing db authId db₁)
      (attempt : Attempted authId withdrawing db₁ turn) : Authorized withdrawing db turn

theorem rejected_closes (db : Db) (withdrawing : Withdrawing) (rejection : Rejection) :
    Closes withdrawing db { toTurn := .reject db rejection } :=
  ⟨Apart.refl db, Or.inl rfl, rfl⟩

/-- What step 5 does: it gives up, or it attempts a payout for an authorization it creates, takes
back or finds. -/
inductive AuthorizeWent (withdrawing : Withdrawing) (db : Db) : WithdrawTurn → Prop where
  | given_up {turn : WithdrawTurn} (closes : Closes withdrawing db turn)
      (ends : turn.next = none) : AuthorizeWent withdrawing db turn
  | created {db₁ : Db} {params : AuthorizationParams}
      (missing : getAuthorizationByNullifier db withdrawing.request.nullifierHash = none)
      (row : createAuthorization params moment.random.uuid moment.nowSecs db = .ok db₁)
      (hash : params.starknetTxHash = withdrawing.txHash)
      (nullifier : params.nullifierHash = withdrawing.request.nullifierHash) :
      AuthorizeWent withdrawing db (attemptPayout cfg moment db₁ withdrawing moment.random.uuid)
  | retried {auth : WithdrawalAuthorization}
      (found : getAuthorizationByNullifier db withdrawing.request.nullifierHash = some auth)
      (failed : auth.status = .failed) :
      AuthorizeWent withdrawing db (attemptPayout cfg moment
        (markStatus auth.id .pending moment.nowSecs db) withdrawing auth.id)
  | resumed {auth : WithdrawalAuthorization}
      (found : getAuthorizationByNullifier db withdrawing.request.nullifierHash = some auth) :
      AuthorizeWent withdrawing db (attemptPayout cfg moment db withdrawing auth.id)

theorem authorize_went (db : Db) (withdrawing : Withdrawing) :
    AuthorizeWent cfg moment withdrawing db (authorize cfg moment db withdrawing) := by
  unfold authorize
  cases vaultById db withdrawing.vaultId with
  | none => exact .given_up (rejected_closes ..) rfl
  | some vault =>
      dsimp only
      cases decryptAmount cfg.crypto vault.encryptedAmount vault.salt with
      | error message => exact .given_up (rejected_closes ..) rfl
      | ok amountSats =>
          dsimp only
          cases found : getAuthorizationByNullifier db withdrawing.request.nullifierHash with
          | none =>
              dsimp only
              split
              · next message refused =>
                obtain ⟨closes, ends⟩ :=
                  finish_unpaid moment db withdrawing [] none rfl (some message)
                exact .given_up closes ends
              · next db₁ created => exact .created found created rfl rfl
          | some auth =>
              dsimp only
              split_ifs with failed
              · exact .retried found failed
              · exact .resumed found

theorem authorize_authorized (db : Db) (withdrawing : Withdrawing) :
    Authorized withdrawing db (authorize cfg moment db withdrawing) := by
  have went := authorize_went cfg moment db withdrawing
  generalize authorize cfg moment db withdrawing = turn at went ⊢
  cases went with
  | given_up closes ends => exact .given_up closes ends
  | created missing row hash _ =>
      exact .attempted (.created missing row hash) (attemptPayout_attempted ..)
  | @retried auth found failed =>
      have marks : Marks {auth.id} db (markStatus auth.id .pending moment.nowSecs db) :=
        Marks.of_writeStatus (Set.mem_singleton auth.id) (by decide) _ _ _ _
      exact .attempted (.existing found marks) (attemptPayout_attempted ..)
  | resumed found => exact .attempted (.existing found (Marks.refl _ _)) (attemptPayout_attempted ..)

/-- A payout of the route goes on, or it is over and the handler with it. -/
inductive RaceResumed (nextRequest : Nat) (db : Db) (withdrawing : Withdrawing) (payout : Payout)
    (reply : MempoolReply) : WithdrawTurn → Prop where
  | send {payment : Payment} (unsent : payout.request = none)
      (silent : ∀ answer, reply ≠ .broadcast answer) :
      RaceResumed nextRequest db withdrawing payout reply
        { toTurn := .wait db (.racing withdrawing (.sent payout.auth nextRequest))
          sends := some (payout.auth.id, payment) }
  | failed {db₁ : Db} {turn : WithdrawTurn} (marks : Marks {payout.auth.id} db db₁)
      (unpaid : Paid payout reply = none) (closes : Closes withdrawing db₁ turn)
      (ends : turn.next = none) :
      RaceResumed nextRequest db withdrawing payout reply turn
  | paid {db₁ : Db} {turn : WithdrawTurn} {txid : Text} (sent : payout.request ≠ none)
      (answer : reply = .broadcast (.ok txid)) (completes : Completes payout.auth.id db db₁)
      (closes : Closes withdrawing db₁ turn) (ends : turn.next = none) :
      RaceResumed nextRequest db withdrawing payout reply turn

theorem resumeRacing_resumed {nextRequest : Nat} {db : Db} {withdrawing : Withdrawing}
    {payout : Payout} {reply : MempoolReply} {turn : WithdrawTurn}
    (resumed : resumeRacing cfg moment nextRequest db withdrawing payout reply = some turn) :
    RaceResumed nextRequest db withdrawing payout reply turn := by
  simp only [resumeRacing, Option.bind_eq_bind, Option.bind_eq_some_iff] at resumed
  obtain ⟨after, went, told⟩ := resumed
  cases resumePayout_resumed cfg went with
  | send unsent silent =>
      cases told
      exact .send unsent silent
  | failed marks _ unpaid =>
      cases told
      obtain ⟨closes, ends⟩ := finish_unpaid moment _ withdrawing payout.auth.id none rfl none
      exact .failed marks unpaid closes ends
  | @paid txid sent answer legible =>
      cases told
      cases empty : txid.isEmpty with
      | true =>
          obtain ⟨unpaid, covenants⟩ := blank_unpaid cfg answer empty legible
          obtain ⟨closes, ends⟩ := finish_unpaid moment db withdrawing payout.auth.id (some txid)
            (by simp [Option.filter, empty]) none
          simp only [covenants, if_true]
          exact .failed (Marks.refl _ _) unpaid closes ends
      | false =>
          obtain ⟨db₁, completes, closes, ends⟩ :=
            finish_paid moment (if cfg.useCovenants then db
              else writeStatus payout.auth.id .completed moment.nowSecs (some txid) none db)
              withdrawing payout.auth.id empty none
          refine .paid sent answer ?_ closes ends
          split_ifs at completes
          · exact completes
          · exact (Completes.of_writeStatus ..).trans completes

theorem loseRace_closes (db : Db) (withdrawing : Withdrawing) (payout : Payout) :
    Closes withdrawing db (loseRace moment db withdrawing payout) ∧
      (loseRace moment db withdrawing payout).next = some (.orphaned payout) := by
  obtain ⟨closes, _⟩ := finish_unpaid moment db withdrawing payout.auth.id none rfl none
  exact ⟨⟨closes.apart, closes.vaults, closes.silent⟩, rfl⟩

/-- What a payout does that has lost its race. -/
inductive OrphanResumed (nextRequest : Nat) (db : Db) (payout : Payout) (reply : MempoolReply) :
    WithdrawTurn → Prop where
  | send {payment : Payment} (unsent : payout.request = none)
      (silent : ∀ answer, reply ≠ .broadcast answer) :
      OrphanResumed nextRequest db payout reply
        { toTurn := .wait db (.orphaned (.sent payout.auth nextRequest))
          sends := some (payout.auth.id, payment) }
  | failed {db₁ : Db} (marks : Marks {payout.auth.id} db db₁)
      (kept : cfg.useCovenants = true → db₁ = db) (unpaid : Paid payout reply = none) :
      OrphanResumed nextRequest db payout reply { db := db₁ }
  | lost (covenants : cfg.useCovenants = true) :
      OrphanResumed nextRequest db payout reply { db := db }
  | paid {db₁ : Db} {txid : Text} (legacy : cfg.useCovenants = false)
      (sent : payout.request ≠ none) (answer : reply = .broadcast (.ok txid))
      (completes : Completes payout.auth.id db db₁) :
      OrphanResumed nextRequest db payout reply { db := db₁ }

theorem resumeOrphaned_resumed {nextRequest : Nat} {db : Db} {payout : Payout}
    {reply : MempoolReply} {turn : WithdrawTurn}
    (resumed : resumeOrphaned cfg moment nextRequest db payout reply = some turn) :
    OrphanResumed cfg nextRequest db payout reply turn := by
  simp only [resumeOrphaned, Option.bind_eq_bind, Option.bind_eq_some_iff] at resumed
  obtain ⟨after, went, told⟩ := resumed
  cases resumePayout_resumed cfg went with
  | send unsent silent =>
      cases told
      exact .send unsent silent
  | failed marks kept unpaid =>
      cases told
      exact .failed marks kept unpaid
  | paid sent answer legible =>
      cases told
      split_ifs with covenants
      · exact .lost covenants
      · exact .paid (by simpa using covenants) sent answer (Completes.of_writeStatus ..)

/-- What a turn of the proof-based withdrawal has written. -/
inductive ExecuteWrites (db : Db) (task : ExecuteTask) (reply : RpcReply) : Db → Prop where
  | nothing : ExecuteWrites db task reply db
  | spent {txHash nullifierHash : Text} {withdrawal : ExecutingWithdrawal} {blockNumber : Nat}
      {receipt : TransactionReceipt} {db' : Db}
      (waited : task = .event txHash withdrawal blockNumber)
      (own : withdrawal.nullifierHash = some nullifierHash)
      (answer : reply = .receipt (.ok receipt))
      (shown : verifyWithdrawalEvent cfg.vaultContractAddress receipt nullifierHash = true)
      (stored : spend moment txHash nullifierHash withdrawal blockNumber db = .ok db') :
      ExecuteWrites db task reply db'

/-- What execute writes to its vault. -/
def spent (txHash nullifierHash : Text) (v : VaultRow) : VaultRow :=
  { v with
    status := .withdrawn
    withdrawTxHash := some txHash
    nullifierHash := some nullifierHash }

theorem spend_ok {txHash nullifierHash : Text} {withdrawal : ExecutingWithdrawal}
    {blockNumber : Nat} {db db' : Db}
    (done : spend moment txHash nullifierHash withdrawal blockNumber db = .ok db') :
    db'.vaults.rows = (db.vaults.rows.map fun v =>
      if v.id == withdrawal.vaultId then spent txHash nullifierHash v else v) ∧
      db'.authorizations = db.authorizations ∧
      db'.nullifiers.rows = db.nullifiers.rows ++
        [⟨nullifierHash, withdrawal.vaultId, moment.nowSecs, txHash⟩] := by
  simp only [spend, bind_eq_ok] at done
  obtain ⟨db₁, used, db₂, moved, logged⟩ := done
  obtain ⟨same, authorizations, inserted⟩ := insertNullifier_ok used
  obtain ⟨rows, apart⟩ := updateVaults_ok moved
  obtain ⟨kept, later⟩ := insertTransaction_ok logged
  refine ⟨?_, ?_, ?_⟩
  · rw [kept, rows, same]
    rfl
  · rw [later.authorizations, apart.authorizations, authorizations]
  · rw [later.nullifiers, apart.nullifiers, inserted]

theorem resumeExecute_writes {db : Db} {task : ExecuteTask} {reply : RpcReply}
    {turn : ExecuteTurn} (resumed : resumeExecute cfg moment db task reply = some turn) :
    ExecuteWrites cfg moment db task reply turn.db := by
  unfold resumeExecute at resumed
  split at resumed
  · cases resumed
    unfold afterCheck
    dsimp only
    split_ifs <;> exact .nothing
  · cases resumed
    unfold afterWithdrawReceipt
    split <;> exact .nothing
  · next txHash withdrawal blockNumber answer =>
    cases resumed
    unfold afterEvent
    split
    · exact .nothing
    · next receipt received =>
      split
      · exact .nothing
      · next nullifierHash own =>
        split_ifs with shown
        · cases stored : spend moment txHash nullifierHash withdrawal blockNumber db with
          | error message => exact .nothing
          | ok db' =>
              have answer := getTransactionReceipt_ok received
              exact .spent rfl own (by rw [answer]) shown stored
        · exact .nothing
  · cases resumed

theorem ExecuteWrites.authorizations {db db' : Db} {task : ExecuteTask} {reply : RpcReply}
    (writes : ExecuteWrites cfg moment db task reply db') :
    db'.authorizations = db.authorizations := by
  cases writes with
  | nothing => rfl
  | spent _ _ _ _ stored => exact (spend_ok moment stored).2.1

end PrivateBtc.Backend.Withdrawals
