/- PrivateBtc/Backend/StatementFaults
   digest: The withdraw handler over a database whose statements may throw for reasons of its own. -/

import PrivateBtc.Backend.CarriedRows
import PrivateBtc.Backend.VaultWrites

set_option autoImplicit false
set_option relaxedAutoImplicit false

namespace PrivateBtc.Backend.StatementFaults

open Library Library.JsText Library.Outcome
open Authorizations CarriedRows CryptoService Database Http Payments ProofVerifier Server Starknet
open VaultWrites Withdrawals
open WithdrawGate (Admission WithdrawBody WithdrawRequest tb1 withdrawGate)

/-- The statements that the withdraw handler and its payout send to the database. -/
inductive Site where
  | vaultByNullifier
  | vaultDetails
  | amount
  | authorizationByNullifier
  | anonymitySet
  | knownSender
  | existing
  | insertAuthorization
  | created
  | reset
  | payoutById
  | payoutByNullifier
  | processing
  | failed
  | paid
  | completed
  | closeVault
  | insertTransaction

/-- The statements of one turn that throw although no constraint is violated (a busy, full or
broken database), with their messages. -/
abbrev Faults := Site → Option String

def calm : Faults := fun _ => none

def orFault {A : Type} (fault : Option String) (x : Except String A) : Except String A :=
  match fault with
  | some message => .error message
  | none => x

@[simp] theorem orFault_none {A : Type} (x : Except String A) : orFault none x = x := rfl

theorem orFault_ok {A : Type} {fault : Option String} {x : Except String A} {a : A} :
    orFault fault x = .ok a ↔ fault = none ∧ x = .ok a := by
  cases fault <;> simp [orFault]

variable (cfg : Config) (moment : Moment) (faults : Faults)

section Payouts

/-- `settleError`, whose UPDATE may throw in its turn. -/
def settleErrorUnder (nowSecs : Nat) (auth : WithdrawalAuthorization) (message : String) (db : Db) :
    PayoutTurn :=
  if cfg.useCovenants then ⟨db, none, .settled (.error message)⟩
  else
    match faults .failed with
    | some thrown => ⟨db, none, .settled (.error thrown)⟩
    | none => ⟨writeStatus auth.id .failed nowSecs none (some message) db, none,
        .settled (.error message)⟩

def executeCovenantWithdrawalUnder (authorizationId : Text) (db : Db) : PayoutTurn :=
  match faults .payoutById with
  | some message => ⟨db, none, .settled (.error message)⟩
  | none => executeCovenantWithdrawal authorizationId db

/-- The first three statements stand before the `try`. -/
def sendBitcoinWithAuthorizationUnder (authorizationId : Text) (nowSecs : Nat) (db : Db) :
    PayoutTurn :=
  match orFault (faults .payoutById) (.ok (getAuthorizationById db authorizationId)) with
  | .error message => ⟨db, none, .settled (.error message)⟩
  | .ok none =>
      ⟨db, none, .settled (.error ("Authorization not found: " ++ String.ofList authorizationId))⟩
  | .ok (some auth) =>
      match orFault (faults .payoutByNullifier) (.ok (verifyAuthorization db auth.nullifierHash)) with
      | .error message => ⟨db, none, .settled (.error message)⟩
      | .ok (.error message) =>
          ⟨db, none, .settled (.error ("Invalid authorization: " ++ message))⟩
      | .ok (.ok _) =>
          match faults .processing with
          | some message => ⟨db, none, .settled (.error message)⟩
          | none =>
              let db := markStatus auth.id .processing nowSecs db
              match senderOf cfg auth.bitcoinAddress with
              | .error message => settleErrorUnder cfg faults nowSecs auth message db
              | .ok _ => ⟨db, none, .waiting (.fetching auth)⟩

def startPayoutUnder (authorizationId : Text) (nowSecs : Nat) (db : Db) : PayoutTurn :=
  if cfg.useCovenants then executeCovenantWithdrawalUnder faults authorizationId db
  else sendBitcoinWithAuthorizationUnder cfg faults authorizationId nowSecs db

def settleBroadcastUnder (nowSecs : Nat) (auth : WithdrawalAuthorization) (txid : Text) (db : Db) :
    PayoutTurn :=
  if cfg.useCovenants then ⟨db, none, .settled (.ok txid)⟩
  else
    match (markCompleted auth.id nowSecs txid db).bind fun db => orFault (faults .paid) (.ok db) with
    | .ok db => ⟨db, none, .settled (.ok txid)⟩
    | .error message => settleErrorUnder cfg faults nowSecs auth message db

def resumePayoutUnder (nowSecs nextRequest : Nat) (db : Db) :
    Payout → MempoolReply → Option PayoutTurn
  | .fetching auth, .utxos (.ok (utxos, feeRate)) =>
      match buildFor cfg auth utxos feeRate with
      | .ok payment => some ⟨db, some payment, .waiting (.sent auth nextRequest)⟩
      | .error message => some (settleErrorUnder cfg faults nowSecs auth message db)
  | .fetching auth, .utxos (.error message) =>
      some (settleErrorUnder cfg faults nowSecs auth message db)
  | .sent auth _, .broadcast (.ok txid) =>
      some (settleBroadcastUnder cfg faults nowSecs auth txid db)
  | .sent auth _, .broadcast (.error message) =>
      some (settleErrorUnder cfg faults nowSecs auth message db)
  | _, _ => none

end Payouts

section Handler

def closeVaultUnder (db : Db) (withdrawing : Withdrawing) (answer : WithdrawAnswer) :
    WithdrawTurn :=
  if withdrawing.isRetry then { toTurn := .reply db answer }
  else
    match orFault (faults .closeVault)
        (updateVaults (fun v => v.id == withdrawing.vaultId) (closed withdrawing) db) with
    | .error message => { toTurn := .reject db ⟨500, message⟩ }
    | .ok db =>
        match orFault (faults .insertTransaction) (insertTransaction
            { id := moment.random.uuid, vaultId := withdrawing.vaultId, txHash := withdrawing.txHash,
              type := .withdraw, amountEncrypted := encryptedAmountOf db withdrawing.vaultId,
              timestamp := moment.nowSecs } db) with
        | .error message => { toTurn := .reject db ⟨500, message⟩ }
        | .ok db => { toTurn := .reply db answer }

/-- The txid has been told to the handler before the UPDATE that records it. -/
def finishUnder (db : Db) (withdrawing : Withdrawing) (authId : Text) (result : Option Text)
    (sendError : Option String) : WithdrawTurn :=
  match result.filter fun txid => !txid.isEmpty with
  | some txid =>
      let db :=
        match faults .completed with
        | some _ => db
        | none => writeStatus authId .completed moment.nowSecs (some txid) none db
      closeVaultUnder moment faults db withdrawing
        ⟨withdrawing.txHash, some txid, none, withdrawing.isRetry⟩
  | none =>
      closeVaultUnder moment faults db withdrawing
        ⟨withdrawing.txHash, none, sendError, withdrawing.isRetry⟩

def attemptPayoutUnder (db : Db) (withdrawing : Withdrawing) (authId : Text) : WithdrawTurn :=
  let started := startPayoutUnder cfg faults authId moment.nowSecs db
  match started.progress with
  | .waiting payout => { toTurn := .wait started.db (.racing withdrawing payout) }
  | .settled result => finishUnder moment faults started.db withdrawing authId result.toOption none

/-- `createAuthorization` up to its INSERT. -/
def insertedUnder (params : AuthorizationParams) (id : Text) (nowSecs : Nat) (db : Db) :
    Except String Db :=
  if !(['t', 'b', '1'].isPrefixOf params.bitcoinAddress) then
    .error "Invalid Bitcoin address - must be Signet testnet (starts with tb1)"
  else orFault (faults .anonymitySet) <| orFault (faults .knownSender) <|
    if !(['0', 'x'].isPrefixOf params.starknetTxHash) || params.starknetTxHash.length < 34 then
      .error "Invalid Starknet transaction hash"
    else orFault (faults .existing) <|
      if (db.authorizations.find? fun row => row.nullifierHash == params.nullifierHash ||
          row.starknetTxHash == params.starknetTxHash).isSome then
        .error "Authorization already exists for this withdrawal"
      else orFault (faults .insertAuthorization) (insertAuthorization (params.row id nowSecs) db)

/-- The database that `createAuthorization` leaves, and its exception: the SELECT that reads the
row back may throw when the row is stored. -/
def createAuthorizationUnder (params : AuthorizationParams) (id : Text) (nowSecs : Nat) (db : Db) :
    Db × Option String :=
  match insertedUnder faults params id nowSecs db with
  | .ok db => (db, faults .created)
  | .error message => (db, some message)

/-- Step 5. The SELECT of the amount stands before the inner `try`, all that follows is in it. -/
def authorizeUnder (db : Db) (withdrawing : Withdrawing) : WithdrawTurn :=
  match orFault (faults .amount) (.ok (vaultById db withdrawing.vaultId)) with
  | .error message => { toTurn := .reject db ⟨500, message⟩ }
  | .ok none => { toTurn := .reject db ⟨500, "Cannot read properties of undefined"⟩ }
  | .ok (some vault) =>
      match decryptAmount cfg.crypto vault.encryptedAmount vault.salt with
      | .error message => { toTurn := .reject db ⟨500, message⟩ }
      | .ok amountSats =>
          match orFault (faults .authorizationByNullifier)
              (.ok (getAuthorizationByNullifier db withdrawing.request.nullifierHash)) with
          | .error message => finishUnder moment faults db withdrawing [] none (some message)
          | .ok none =>
              match createAuthorizationUnder faults
                  { vaultId := withdrawing.vaultId
                    nullifierHash := withdrawing.request.nullifierHash
                    starknetTxHash := withdrawing.txHash
                    bitcoinAddress := withdrawing.request.bitcoinAddress
                    amountSats := actualSats amountSats } moment.random.uuid moment.nowSecs db with
              | (db, some message) =>
                  finishUnder moment faults db withdrawing [] none (some message)
              | (db, none) => attemptPayoutUnder cfg moment faults db withdrawing moment.random.uuid
          | .ok (some auth) =>
              if auth.status = .failed then
                match faults .reset with
                | some message => finishUnder moment faults db withdrawing [] none (some message)
                | none =>
                    attemptPayoutUnder cfg moment faults
                      (markStatus auth.id .pending moment.nowSecs db) withdrawing auth.id
              else attemptPayoutUnder cfg moment faults db withdrawing auth.id

/-- `withdrawGate` with its two SELECTs. -/
def withdrawGateUnder (senderAddress : Option Text) (crypto : Crypto) (db : Db)
    (body : WithdrawBody) : Except Rejection Admission := do
  let request ← body.validate
  refuse (!tb1.isPrefixOf request.bitcoinAddress) 400
    "Invalid Bitcoin address. Must be a Signet testnet address (starts with tb1)"
  refuse (some request.bitcoinAddress == senderAddress) 400
    ("Cannot withdraw to the vault's own address (" ++ String.ofList request.bitcoinAddress ++
      "). Please enter a different Bitcoin address where you want to receive your funds.")
  internalError (orFault (faults .vaultByNullifier) (.ok ()))
  match vaultByNullifier db request.nullifierHash with
  | none => throw ⟨404, "Vault not found for this nullifier"⟩
  | some vault =>
      refuse (vault.status == .withdrawn) 400
        "Vault is already fully withdrawn. Both Starknet and Bitcoin payouts completed."
      refuse (vault.status != .active && vault.withdrawTxHash.isNone) 400
        s!"Vault is {vault.status.text} — cannot withdraw"
      match vault.withdrawTxHash with
      | some txHash => pure (.retry request vault txHash)
      | none =>
          internalError (orFault (faults .vaultDetails) (.ok ()))
          let amountSats ← internalError (decryptAmount crypto vault.encryptedAmount vault.salt)
          refuse (vault.ownerAddress == ['0', 'x', '0'] || !isValidAddress vault.ownerAddress) 400
            "Invalid owner address in vault record"
          pure (.submit request vault
            ⟨request.nullifierHash, [request.nullifierHash], vault.ownerAddress, amountSats⟩)

def withdrawUnder (db : Db) (body : WithdrawBody) : WithdrawTurn :=
  match withdrawGateUnder faults cfg.senderAddress cfg.crypto db body with
  | .error rejection => { toTurn := .reject db rejection }
  | .ok (.submit request vault call) => { toTurn := .wait db (.executing request vault call) }
  | .ok (.retry request vault txHash) =>
      authorizeUnder cfg moment faults db ⟨request, vault.id, txHash, true⟩

def afterWithdrawUnder (db : Db) (request : WithdrawRequest) (vault : VaultRow) :
    Except ExecuteFailure Text → WithdrawTurn
  | .ok txHash => authorizeUnder cfg moment faults db ⟨request, vault.id, txHash, false⟩
  | .error failure => afterWithdraw cfg moment db request vault (.error failure)

def resumeRacingUnder (nextRequest : Nat) (db : Db) (withdrawing : Withdrawing) (payout : Payout)
    (reply : MempoolReply) : Option WithdrawTurn := do
  let resumed ← resumePayoutUnder cfg faults moment.nowSecs nextRequest db payout reply
  match resumed.progress with
  | .waiting payout =>
      pure { toTurn := .wait resumed.db (.racing withdrawing payout)
             sends := resumed.sends.map fun payment => (payout.auth.id, payment) }
  | .settled result =>
      pure (finishUnder moment faults resumed.db withdrawing payout.auth.id result.toOption none)

def loseRaceUnder (db : Db) (withdrawing : Withdrawing) (payout : Payout) : WithdrawTurn :=
  let ended := finishUnder moment faults db withdrawing payout.auth.id none none
  { ended with next := some (.orphaned payout) }

def resumeOrphanedUnder (nextRequest : Nat) (db : Db) (payout : Payout) (reply : MempoolReply) :
    Option WithdrawTurn := do
  let resumed ← resumePayoutUnder cfg faults moment.nowSecs nextRequest db payout reply
  match resumed.progress with
  | .waiting payout =>
      pure { toTurn := .wait resumed.db (.orphaned payout)
             sends := resumed.sends.map fun payment => (payout.auth.id, payment) }
  | .settled _ => pure { db := resumed.db }

end Handler

/-! Without faults the handler is the one of the server. -/
section Calm

variable {cfg moment}

theorem settleErrorUnder_calm (nowSecs : Nat) (auth : WithdrawalAuthorization) (message : String)
    (db : Db) :
    settleErrorUnder cfg calm nowSecs auth message db = settleError cfg nowSecs auth message db := by
  unfold settleErrorUnder settleError
  split_ifs <;> rfl

theorem startPayoutUnder_calm (authorizationId : Text) (nowSecs : Nat) (db : Db) :
    startPayoutUnder cfg calm authorizationId nowSecs db =
      startPayout cfg authorizationId nowSecs db := by
  unfold startPayoutUnder startPayout
  split_ifs
  · rfl
  · unfold sendBitcoinWithAuthorizationUnder sendBitcoinWithAuthorization
    simp only [calm, orFault_none]
    cases getAuthorizationById db authorizationId with
    | none => rfl
    | some auth =>
        dsimp only
        cases verifyAuthorization db auth.nullifierHash with
        | error message => rfl
        | ok checked =>
            dsimp only
            cases senderOf cfg auth.bitcoinAddress with
            | error message => exact settleErrorUnder_calm ..
            | ok sender => rfl

theorem settleBroadcastUnder_calm (nowSecs : Nat) (auth : WithdrawalAuthorization) (txid : Text)
    (db : Db) :
    settleBroadcastUnder cfg calm nowSecs auth txid db =
      settleBroadcast cfg nowSecs auth txid db := by
  unfold settleBroadcastUnder settleBroadcast
  split_ifs
  · rfl
  · cases markCompleted auth.id nowSecs txid db with
    | error message => exact settleErrorUnder_calm ..
    | ok db => rfl

theorem resumePayoutUnder_calm (nowSecs nextRequest : Nat) (db : Db) (payout : Payout)
    (reply : MempoolReply) :
    resumePayoutUnder cfg calm nowSecs nextRequest db payout reply =
      resumePayout cfg nowSecs nextRequest db payout reply := by
  cases payout with
  | fetching auth =>
      cases reply with
      | broadcast answer => rfl
      | utxos answer =>
          cases answer with
          | error message => exact congrArg some (settleErrorUnder_calm ..)
          | ok told =>
              obtain ⟨utxos, feeRate⟩ := told
              simp only [resumePayoutUnder, resumePayout]
              cases buildFor cfg auth utxos feeRate with
              | error message => exact congrArg some (settleErrorUnder_calm ..)
              | ok payment => rfl
  | sent auth request =>
      cases reply with
      | utxos answer => rfl
      | broadcast answer =>
          cases answer with
          | error message => exact congrArg some (settleErrorUnder_calm ..)
          | ok txid => exact congrArg some (settleBroadcastUnder_calm ..)

theorem finishUnder_calm (db : Db) (withdrawing : Withdrawing) (authId : Text)
    (result : Option Text) (sendError : Option String) :
    finishUnder moment calm db withdrawing authId result sendError =
      finish moment db withdrawing authId result sendError := rfl

theorem attemptPayoutUnder_calm (db : Db) (withdrawing : Withdrawing) (authId : Text) :
    attemptPayoutUnder cfg moment calm db withdrawing authId =
      attemptPayout cfg moment db withdrawing authId := by
  rw [attemptPayoutUnder, startPayoutUnder_calm]
  rfl

theorem createAuthorizationUnder_calm (params : AuthorizationParams) (id : Text) (nowSecs : Nat)
    (db : Db) :
    createAuthorizationUnder calm params id nowSecs db =
      match createAuthorization params id nowSecs db with
      | .ok db => (db, none)
      | .error message => (db, some message) := rfl

theorem authorizeUnder_calm (db : Db) (withdrawing : Withdrawing) :
    authorizeUnder cfg moment calm db withdrawing = authorize cfg moment db withdrawing := by
  unfold authorizeUnder authorize
  simp only [calm, orFault_none]
  cases vaultById db withdrawing.vaultId with
  | none => rfl
  | some vault =>
      dsimp only
      cases decryptAmount cfg.crypto vault.encryptedAmount vault.salt with
      | error message => rfl
      | ok amountSats =>
          dsimp only
          cases getAuthorizationByNullifier db withdrawing.request.nullifierHash with
          | none =>
              dsimp only
              rw [createAuthorizationUnder_calm]
              cases createAuthorization _ _ _ db with
              | error message => exact finishUnder_calm ..
              | ok db => exact attemptPayoutUnder_calm ..
          | some auth =>
              dsimp only
              split_ifs <;> exact attemptPayoutUnder_calm ..

theorem withdrawGateUnder_calm (senderAddress : Option Text) (crypto : Crypto) (db : Db)
    (body : WithdrawBody) :
    withdrawGateUnder calm senderAddress crypto db body =
      withdrawGate senderAddress crypto db body := rfl

theorem withdrawUnder_calm (db : Db) (body : WithdrawBody) :
    withdrawUnder cfg moment calm db body = withdraw cfg moment db body := by
  unfold withdrawUnder withdraw
  rw [withdrawGateUnder_calm]
  cases withdrawGate cfg.senderAddress cfg.crypto db body with
  | error rejection => rfl
  | ok admission =>
      cases admission with
      | submit request vault call => rfl
      | retry request vault txHash => exact authorizeUnder_calm ..

theorem afterWithdrawUnder_calm (db : Db) (request : WithdrawRequest) (vault : VaultRow)
    (reply : Except ExecuteFailure Text) :
    afterWithdrawUnder cfg moment calm db request vault reply =
      afterWithdraw cfg moment db request vault reply := by
  cases reply with
  | error failure => rfl
  | ok txHash => exact authorizeUnder_calm ..

theorem resumeRacingUnder_calm (nextRequest : Nat) (db : Db) (withdrawing : Withdrawing)
    (payout : Payout) (reply : MempoolReply) :
    resumeRacingUnder cfg moment calm nextRequest db withdrawing payout reply =
      resumeRacing cfg moment nextRequest db withdrawing payout reply := by
  rw [resumeRacingUnder, resumePayoutUnder_calm]
  rfl

theorem resumeOrphanedUnder_calm (nextRequest : Nat) (db : Db) (payout : Payout)
    (reply : MempoolReply) :
    resumeOrphanedUnder cfg moment calm nextRequest db payout reply =
      resumeOrphaned cfg moment nextRequest db payout reply := by
  rw [resumeOrphanedUnder, resumePayoutUnder_calm]
  rfl

end Calm

section System

variable (env : Environment)

def beginUnder (issued : List ProofToken) (db : Db) : Request → SystemTurn
  | .withdraw body => liftPay .withdraw .withdraw (withdrawUnder env.toConfig moment faults db body)
  | request => begin env moment issued db request

def resumeUnder (nextRequest : Nat) (db : Db) : Task → Reply → Option SystemTurn
  | .withdraw (.executing request vault _), .rpc (.executed reply) =>
      some (liftPay .withdraw .withdraw
        (afterWithdrawUnder env.toConfig moment faults db request vault reply))
  | .withdraw (.racing withdrawing payout), .mempool reply =>
      (resumeRacingUnder env.toConfig moment faults nextRequest db withdrawing payout reply).map
        (liftPay .withdraw .withdraw)
  | .withdraw (.orphaned payout), .mempool reply =>
      (resumeOrphanedUnder env.toConfig moment faults nextRequest db payout reply).map
        (liftPay .withdraw .withdraw)
  | task, reply => resume env moment nextRequest db task reply

def expireUnder (db : Db) : Task → Option SystemTurn
  | .withdraw (.racing withdrawing payout) =>
      some (liftPay .withdraw .withdraw (loseRaceUnder moment faults db withdrawing payout))
  | task => expire moment db task

/-- A step of the server in which statements of the withdraw handler may throw. -/
def stepUnder (s : State) : Label × Faults → Option State
  | (.request id request moment, faults) =>
      match s.tasks id with
      | some _ => none
      | none => some (settle s id request (beginUnder moment faults env s.issued s.db request))
  | (.reply id reply moment, faults) => do
      let (request, task) ← s.tasks id
      let turn ← resumeUnder moment faults env s.broadcasts.length s.db task reply
      pure (settle (hear env s task reply) id request turn)
  | (.timeout id moment, faults) => do
      let (request, task) ← s.tasks id
      let turn ← expireUnder moment faults s.db task
      pure (settle s id request turn)
  | (label, _) => step env s label

/-- What a step can be, whatever throws. -/
inductive SteppedUnder (s : State) : Label → State → Prop where
  | request {id : Nat} {request : Request} {moment : Moment} (idle : s.tasks id = none) :
      SteppedUnder s (.request id request moment)
        (settle s id request (beginUnder moment faults env s.issued s.db request))
  | reply {id : Nat} {request : Request} {task : Task} {reply : Reply} {moment : Moment}
      {turn : SystemTurn} (waits : s.tasks id = some (request, task))
      (resumed : resumeUnder moment faults env s.broadcasts.length s.db task reply = some turn) :
      SteppedUnder s (.reply id reply moment) (settle (hear env s task reply) id request turn)
  | timeout {id : Nat} {request : Request} {task : Task} {moment : Moment} {turn : SystemTurn}
      (waits : s.tasks id = some (request, task))
      (expired : expireUnder moment faults s.db task = some turn) :
      SteppedUnder s (.timeout id moment) (settle s id request turn)
  | land {index : Nat} :
      SteppedUnder s (.land index) { s with broadcasts := land s.broadcasts index }
  | block {txHash : Text} {calls : Option (List Contracts.Vault.Call)}
      (fresh : s.chain.included (canonicalHash txHash) = none) :
      SteppedUnder s (.block txHash calls)
        { s with
          chain := includeCalls env s.chain (canonicalHash txHash)
            ((s.chain.submitted (canonicalHash txHash)).getD calls) }

variable {faults} in
theorem stepUnder_stepped {s s' : State} {label : Label}
    (stepped : stepUnder env s (label, faults) = some s') : SteppedUnder faults env s label s' := by
  cases label with
  | request id request moment =>
      simp only [stepUnder] at stepped
      cases idle : s.tasks id with
      | some held =>
          simp only [idle] at stepped
          cases stepped
      | none =>
          simp only [idle, Option.some.injEq] at stepped
          subst stepped
          exact .request idle
  | reply id reply moment =>
      simp only [stepUnder, Option.bind_eq_bind, Option.bind_eq_some_iff] at stepped
      obtain ⟨⟨request, task⟩, waits, turn, resumed, told⟩ := stepped
      cases told
      exact .reply waits resumed
  | timeout id moment =>
      simp only [stepUnder, Option.bind_eq_bind, Option.bind_eq_some_iff] at stepped
      obtain ⟨⟨request, task⟩, waits, turn, expired, told⟩ := stepped
      cases told
      exact .timeout waits expired
  | land index =>
      have plain : step env s (.land index) = some s' := stepped
      cases step_stepped env plain with
      | land => exact .land
  | block txHash calls =>
      have plain : step env s (.block txHash calls) = some s' := stepped
      cases step_stepped env plain with
      | block fresh => exact .block fresh

variable {moment}

theorem beginUnder_calm (issued : List ProofToken) (db : Db) (request : Request) :
    beginUnder moment calm env issued db request = begin env moment issued db request := by
  cases request with
  | withdraw body => exact congrArg (liftPay .withdraw .withdraw) (withdrawUnder_calm ..)
  | _ => rfl

theorem resumeUnder_calm (nextRequest : Nat) (db : Db) (task : Task) (reply : Reply) :
    resumeUnder moment calm env nextRequest db task reply =
      resume env moment nextRequest db task reply := by
  unfold resumeUnder
  split
  · rw [afterWithdrawUnder_calm]
    rfl
  · rw [resumeRacingUnder_calm]
    rfl
  · rw [resumeOrphanedUnder_calm]
    rfl
  · rfl

theorem expireUnder_calm (db : Db) (task : Task) :
    expireUnder moment calm db task = expire moment db task := by
  unfold expireUnder
  split <;> rfl

/-- The server is the system in which no such statement throws. -/
theorem stepUnder_calm (s : State) (label : Label) :
    stepUnder env s (label, calm) = step env s label := by
  cases label with
  | request id request moment =>
      cases idle : s.tasks id with
      | none => simp only [stepUnder, step, idle, beginUnder_calm]
      | some held => simp only [stepUnder, step, idle]
  | reply id reply moment => simp only [stepUnder, step, resumeUnder_calm]
  | timeout id moment => simp only [stepUnder, step, expireUnder_calm]
  | land index => rfl
  | block txHash calls => rfl

end System

/-- No authorization is lost or changed in what it was made for, and no vault in what it is. -/
structure Retains (db db' : Db) : Prop where
  extends_ : Extends db db'
  vaults : ∀ row ∈ db.vaults.rows, ∃ row' ∈ db'.vaults.rows, SameVault row row'

namespace Retains

variable {db db₁ db' : Db}

theorem refl (db : Db) : Retains db db :=
  ⟨Extends.refl db, fun row member => ⟨row, member, SameVault.refl row⟩⟩

theorem trans (first : Retains db db₁) (second : Retains db₁ db') : Retains db db' := by
  refine ⟨first.extends_.trans second.extends_, fun row member => ?_⟩
  obtain ⟨row₁, member₁, same₁⟩ := first.vaults row member
  obtain ⟨row', member', same'⟩ := second.vaults row₁ member₁
  exact ⟨row', member', same₁.trans same'⟩

theorem of_vaults (extends_ : Extends db db') (same : db'.vaults = db.vaults) : Retains db db' :=
  ⟨extends_, fun row member => ⟨row, by rwa [same], SameVault.refl row⟩⟩

theorem writeStatus (id : Text) (status : AuthStatus) (nowSecs : Nat) (bitcoinTxid : Option Text)
    (errorMessage : Option String) (db : Db) :
    Retains db (writeStatus id status nowSecs bitcoinTxid errorMessage db) :=
  of_vaults (Extends.of_grants fun _ => grantOf_writeStatus ..) rfl

theorem of_wrote {issued : VaultWrite → Prop} (extends_ : Extends db db')
    (wrote : Wrote issued db db') : Retains db db' :=
  ⟨extends_, fun _ member => wrote.kept member⟩

end Retains

/-- What a turn of the handler leaves, whatever throws in it: a payout that it goes on with is for
a row of the table. -/
structure TurnRetains (db : Db) (turn : WithdrawTurn) : Prop where
  retains : Retains db turn.db
  next : ∀ task, turn.next = some task →
    ∃ payout, payoutOf (.withdraw task) = some payout ∧ Current turn.db [payout.auth]

section Retained

variable {db₁ : Db} {turn : WithdrawTurn}

theorem TurnRetains.after {db : Db} (first : Retains db db₁) (turns : TurnRetains db₁ turn) :
    TurnRetains db turn := ⟨first.trans turns.retains, turns.next⟩

theorem TurnRetains.of_ended {db : Db} (ended : Retains db turn.db ∧ turn.next = none) :
    TurnRetains db turn := by
  refine ⟨ended.1, fun task waits => ?_⟩
  rw [ended.2] at waits
  cases waits

variable (db : Db) (withdrawing : Withdrawing)

theorem closeVaultUnder_retains (answer : WithdrawAnswer) :
    Retains db (closeVaultUnder moment faults db withdrawing answer).db ∧
      (closeVaultUnder moment faults db withdrawing answer).next = none := by
  unfold closeVaultUnder
  split_ifs with retry
  · exact ⟨Retains.refl db, rfl⟩
  · split
    · exact ⟨Retains.refl db, rfl⟩
    · next db₁ moved =>
      obtain ⟨rows, apart⟩ := updateVaults_ok (orFault_ok.mp moved).2
      have first : Retains db db₁ := by
        refine ⟨Extends.of_grants (grantOf_congr apart.authorizations), fun row member => ?_⟩
        refine ⟨if row.id == withdrawing.vaultId then closed withdrawing row else row, ?_, ?_⟩
        · rw [rows]
          exact List.mem_map_of_mem member
        · split_ifs
          · exact ⟨rfl, rfl, rfl, rfl⟩
          · exact SameVault.refl row
      split
      · exact ⟨first, rfl⟩
      · next db₂ logged =>
        obtain ⟨kept, later⟩ := insertTransaction_ok (orFault_ok.mp logged).2
        have second : Retains db₁ db₂ :=
          .of_vaults (Extends.of_grants (grantOf_congr later.authorizations)) kept
        exact ⟨first.trans second, rfl⟩

theorem finishUnder_retains (authId : Text) (result : Option Text) (sendError : Option String) :
    Retains db (finishUnder moment faults db withdrawing authId result sendError).db ∧
      (finishUnder moment faults db withdrawing authId result sendError).next = none := by
  unfold finishUnder
  cases result.filter fun txid => !txid.isEmpty with
  | none => exact closeVaultUnder_retains ..
  | some txid =>
      dsimp only
      cases faults .completed with
      | some message => exact closeVaultUnder_retains ..
      | none =>
          obtain ⟨retains, ended⟩ := closeVaultUnder_retains moment faults
            (writeStatus authId .completed moment.nowSecs (some txid) none db) withdrawing
            ⟨withdrawing.txHash, some txid, none, withdrawing.isRetry⟩
          exact ⟨(Retains.writeStatus ..).trans retains, ended⟩

theorem settleErrorUnder_retains (nowSecs : Nat) (auth : WithdrawalAuthorization)
    (message : String) :
    Retains db (settleErrorUnder cfg faults nowSecs auth message db).db ∧
      ∃ result, (settleErrorUnder cfg faults nowSecs auth message db).progress = .settled result := by
  unfold settleErrorUnder
  split_ifs
  · exact ⟨Retains.refl db, _, rfl⟩
  · split
    · exact ⟨Retains.refl db, _, rfl⟩
    · exact ⟨Retains.writeStatus .., _, rfl⟩

/-- A payout goes on with the row of its authorization, if it goes on. -/
def PayoutRetains (auth : WithdrawalAuthorization → Prop) (turn : PayoutTurn) : Prop :=
  Retains db turn.db ∧ ∀ payout, turn.progress = .waiting payout → auth payout.auth

theorem PayoutRetains.of_settled {auth : WithdrawalAuthorization → Prop} {turn : PayoutTurn}
    (settled : Retains db turn.db ∧ ∃ result, turn.progress = .settled result) :
    PayoutRetains db auth turn := by
  obtain ⟨retains, result, settled⟩ := settled
  refine ⟨retains, fun payout waits => ?_⟩
  rw [settled] at waits
  cases waits

theorem startPayoutUnder_retains (authId : Text) (nowSecs : Nat) :
    PayoutRetains db (fun auth => getAuthorizationById db authId = some auth)
      (startPayoutUnder cfg faults authId nowSecs db) := by
  have failed : ∀ message, PayoutRetains db (fun auth => getAuthorizationById db authId = some auth)
      ⟨db, none, .settled (.error message)⟩ := fun message =>
    .of_settled db ⟨Retains.refl db, _, rfl⟩
  have fetching : ∀ auth db₁, getAuthorizationById db authId = some auth → Retains db db₁ →
      PayoutRetains db (fun auth => getAuthorizationById db authId = some auth)
        ⟨db₁, none, .waiting (.fetching auth)⟩ := by
    intro auth db₁ found retains
    refine ⟨retains, fun payout waits => ?_⟩
    cases waits
    exact found
  unfold startPayoutUnder
  split_ifs
  · unfold executeCovenantWithdrawalUnder executeCovenantWithdrawal
    split
    · exact failed _
    · split
      · exact failed _
      · next auth found => exact fetching auth db found (Retains.refl db)
  · unfold sendBitcoinWithAuthorizationUnder
    split
    · exact failed _
    · exact failed _
    · next auth found =>
      have found := Except.ok.inj (orFault_ok.mp found).2
      split
      · exact failed _
      · exact failed _
      · split
        · exact failed _
        · have marked : Retains db (markStatus auth.id .processing nowSecs db) :=
            Retains.writeStatus ..
          dsimp only
          split
          · obtain ⟨retains, settled⟩ := settleErrorUnder_retains cfg faults
              (markStatus auth.id .processing nowSecs db) nowSecs auth ‹String›
            exact .of_settled db ⟨marked.trans retains, settled⟩
          · exact fetching auth _ found marked

theorem resumePayoutUnder_retains {nowSecs nextRequest : Nat} {payout : Payout}
    {reply : MempoolReply} {turn : PayoutTurn}
    (resumed : resumePayoutUnder cfg faults nowSecs nextRequest db payout reply = some turn) :
    PayoutRetains db (fun auth => auth = payout.auth) turn := by
  have failed : ∀ auth message, PayoutRetains db (fun auth => auth = payout.auth)
      (settleErrorUnder cfg faults nowSecs auth message db) := fun auth message =>
    .of_settled db (settleErrorUnder_retains cfg faults db nowSecs auth message)
  unfold resumePayoutUnder at resumed
  split at resumed
  · split at resumed
    · cases resumed
      refine ⟨Retains.refl db, fun next waits => ?_⟩
      cases waits
      rfl
    · cases resumed
      exact failed _ _
  · cases resumed
    exact failed _ _
  · cases resumed
    unfold settleBroadcastUnder
    split_ifs
    · exact .of_settled db ⟨Retains.refl db, _, rfl⟩
    · split
      · next db₁ recorded =>
        unfold markCompleted at recorded
        split_ifs at recorded
        · cases recorded
        · obtain ⟨-, same⟩ := orFault_ok.mp recorded
          cases same
          exact .of_settled db ⟨Retains.writeStatus .., _, rfl⟩
      · exact failed _ _
  · cases resumed
    exact failed _ _
  · cases resumed

theorem attemptPayoutUnder_retains (authId : Text) :
    TurnRetains db (attemptPayoutUnder cfg moment faults db withdrawing authId) := by
  have started := startPayoutUnder_retains cfg faults db authId moment.nowSecs
  unfold attemptPayoutUnder
  generalize startPayoutUnder cfg faults authId moment.nowSecs db = turn at started
  obtain ⟨retains, waits⟩ := started
  dsimp only
  cases progress : turn.progress with
  | waiting payout =>
      refine ⟨retains, fun task next => ?_⟩
      cases next
      exact ⟨payout, rfl, (current_of_found (waits payout progress)).extends retains.extends_⟩
  | settled result => exact .after retains (.of_ended (finishUnder_retains ..))

/-- The statements of step 5 up to the INSERT of the authorization. -/
def storing : List Site :=
  [.amount, .authorizationByNullifier, .anonymitySet, .knownSender, .existing,
    .insertAuthorization]

/-- None of the statements of step 5 throws before the authorization is stored. -/
def Stores : Prop := ∀ site ∈ storing, faults site = none

theorem insertedUnder_created {params : AuthorizationParams} {id : Text} {nowSecs : Nat} {db₁ : Db}
    (inserted : insertedUnder faults params id nowSecs db = .ok db₁) :
    createAuthorization params id nowSecs db = .ok db₁ := by
  unfold insertedUnder at inserted
  split_ifs at inserted with signet fit known <;>
    simp only [orFault_ok, reduceCtorEq, and_false] at inserted
  obtain ⟨-, -, -, -, stored⟩ := inserted
  rw [createAuthorization, if_neg signet, if_neg fit, if_neg known, stored]

theorem created_insertedUnder {params : AuthorizationParams} {id : Text} {nowSecs : Nat}
    (stores : Stores faults) :
    insertedUnder faults params id nowSecs db = createAuthorization params id nowSecs db := by
  unfold insertedUnder
  rw [stores .anonymitySet (by simp [storing]), stores .knownSender (by simp [storing]),
    stores .existing (by simp [storing]), stores .insertAuthorization (by simp [storing])]
  rfl

theorem createAuthorizationUnder_retains (params : AuthorizationParams) (id : Text)
    (nowSecs : Nat) : Retains db (createAuthorizationUnder faults params id nowSecs db).1 := by
  unfold createAuthorizationUnder
  split
  · next db₁ inserted =>
    have created := insertedUnder_created faults db inserted
    obtain ⟨-, -, -, vaults, -⟩ := createAuthorization_ok created
    exact .of_vaults (createAuthorization_extends created) vaults
  · exact Retains.refl db

theorem authorizeUnder_retains :
    TurnRetains db (authorizeUnder cfg moment faults db withdrawing) := by
  have rejected : ∀ rejection, TurnRetains db { toTurn := .reject db rejection } := fun _ =>
    .of_ended ⟨Retains.refl db, rfl⟩
  unfold authorizeUnder
  split
  · exact rejected _
  · exact rejected _
  · split
    · exact rejected _
    · next amountSats decrypted =>
      split
      · exact .of_ended (finishUnder_retains ..)
      · have stored := createAuthorizationUnder_retains faults db
          ⟨withdrawing.vaultId, withdrawing.request.nullifierHash, withdrawing.txHash,
            withdrawing.request.bitcoinAddress, actualSats amountSats⟩
          moment.random.uuid moment.nowSecs
        split
        · next after message told =>
          rw [told] at stored
          exact .after stored (.of_ended (finishUnder_retains ..))
        · next after told =>
          rw [told] at stored
          exact .after stored (attemptPayoutUnder_retains ..)
      · split_ifs
        · split
          · exact .of_ended (finishUnder_retains ..)
          · exact .after (Retains.writeStatus ..) (attemptPayoutUnder_retains ..)
        · exact attemptPayoutUnder_retains ..

theorem resumeRacingUnder_retains {nextRequest : Nat} {payout : Payout} {reply : MempoolReply}
    (current : Current db [payout.auth])
    (resumed : resumeRacingUnder cfg moment faults nextRequest db withdrawing payout reply =
      some turn) : TurnRetains db turn := by
  simp only [resumeRacingUnder, Option.bind_eq_bind, Option.bind_eq_some_iff] at resumed
  obtain ⟨after, went, told⟩ := resumed
  obtain ⟨retains, waits⟩ := resumePayoutUnder_retains cfg faults db went
  cases progress : after.progress with
  | waiting later =>
      simp only [progress, Option.pure_def, Option.some.injEq] at told
      subst told
      refine ⟨retains, fun task next => ?_⟩
      cases next
      refine ⟨later, rfl, ?_⟩
      rw [waits later progress]
      exact current.extends retains.extends_
  | settled result =>
      simp only [progress, Option.pure_def, Option.some.injEq] at told
      subst told
      exact .after retains (.of_ended (finishUnder_retains ..))

theorem resumeOrphanedUnder_retains {nextRequest : Nat} {payout : Payout} {reply : MempoolReply}
    (current : Current db [payout.auth])
    (resumed : resumeOrphanedUnder cfg moment faults nextRequest db payout reply = some turn) :
    TurnRetains db turn := by
  simp only [resumeOrphanedUnder, Option.bind_eq_bind, Option.bind_eq_some_iff] at resumed
  obtain ⟨after, went, told⟩ := resumed
  obtain ⟨retains, waits⟩ := resumePayoutUnder_retains cfg faults db went
  cases progress : after.progress with
  | waiting later =>
      simp only [progress, Option.pure_def, Option.some.injEq] at told
      subst told
      refine ⟨retains, fun task next => ?_⟩
      cases next
      refine ⟨later, rfl, ?_⟩
      rw [waits later progress]
      exact current.extends retains.extends_
  | settled result =>
      simp only [progress, Option.pure_def, Option.some.injEq] at told
      subst told
      exact .of_ended ⟨retains, rfl⟩

theorem loseRaceUnder_retains {payout : Payout} (current : Current db [payout.auth]) :
    TurnRetains db (loseRaceUnder moment faults db withdrawing payout) := by
  obtain ⟨retains, -⟩ := finishUnder_retains moment faults db withdrawing payout.auth.id none none
  refine ⟨retains, fun task next => ?_⟩
  cases next
  exact ⟨payout, rfl, current.extends retains.extends_⟩

end Retained

theorem withdrawGateUnder_ok {senderAddress : Option Text} {crypto : Crypto} {db : Db}
    {body : WithdrawBody} {admission : Admission}
    (gate : withdrawGateUnder faults senderAddress crypto db body = .ok admission) :
    withdrawGate senderAddress crypto db body = .ok admission := by
  simp only [withdrawGateUnder, bind_eq_ok, refuse_ok] at gate
  obtain ⟨request, valid, _, signet, _, foreign, _, -, gate⟩ := gate
  simp only [withdrawGate, bind_eq_ok, refuse_ok]
  refine ⟨request, valid, (), signet, (), foreign, ?_⟩
  cases found : vaultByNullifier db request.nullifierHash with
  | none =>
      rw [found] at gate
      cases gate
  | some vault =>
      simp only [found, bind_eq_ok, refuse_ok] at gate ⊢
      obtain ⟨_, open_, _, active, gate⟩ := gate
      refine ⟨(), open_, (), active, ?_⟩
      cases first : vault.withdrawTxHash with
      | some txHash => simpa only [first] using gate
      | none =>
          simp only [first, bind_eq_ok] at gate ⊢
          obtain ⟨_, -, gate⟩ := gate
          exact gate

section Steps

variable (env : Environment) {s s' : State}

/-- What a turn of any handler leaves; a Starknet call that it goes on to wait for was admitted. -/
structure SystemRetains (db : Db) (turn : SystemTurn) : Prop where
  retains : Retains db turn.db
  carries : ∀ task, turn.next = some task → Current turn.db (carried task)
  calls : ∀ request vault call,
    turn.next = some (.withdraw (.executing request vault call)) →
      ∃ body, withdrawGate env.senderAddress env.crypto db body = .ok (.submit request vault call)

variable {env}

theorem TurnRetains.system {db : Db} {turn : WithdrawTurn} (turns : TurnRetains db turn) :
    SystemRetains env db (liftPay .withdraw .withdraw turn) := by
  refine ⟨turns.retains, fun task waits => ?_, fun request vault call waits => ?_⟩
  · obtain ⟨own, next, rfl⟩ := liftPay_next.mp waits
    obtain ⟨payout, pays, current⟩ := turns.next own next
    cases own <;> cases pays <;> exact current
  · obtain ⟨own, next, told⟩ := liftPay_next.mp waits
    obtain ⟨payout, pays, -⟩ := turns.next own next
    cases told
    cases pays

theorem withdrawUnder_retains (db : Db) (body : WithdrawBody) :
    SystemRetains env db
      (liftPay .withdraw .withdraw (withdrawUnder env.toConfig moment faults db body)) := by
  unfold withdrawUnder
  split
  · exact (TurnRetains.of_ended ⟨Retains.refl db, rfl⟩).system
  · next request vault call gate =>
    refine ⟨Retains.refl db, fun task waits => ?_, fun _ _ _ waits => ?_⟩
    · cases waits
      exact fun _ none_ => by cases none_
    · cases waits
      exact ⟨body, withdrawGateUnder_ok faults gate⟩
  · exact (authorizeUnder_retains ..).system

theorem begin_retains (issued : List ProofToken) (db : Db) (request : Request) :
    SystemRetains env db (begin env moment issued db request) := by
  have carries := begin_carries env moment issued db request
  have wrote : Wrote (fun _ => True) db (begin env moment issued db request).db := begin_wrote ..
  refine ⟨.of_wrote carries.extends_ wrote, carries.next, fun _ _ _ waits => ?_⟩
  cases begin_withdraw env waits with
  | submit gate => exact ⟨_, gate⟩

theorem beginUnder_retains (issued : List ProofToken) (db : Db) (request : Request) :
    SystemRetains env db (beginUnder moment faults env issued db request) := by
  unfold beginUnder
  split
  · exact withdrawUnder_retains ..
  · exact begin_retains ..

theorem resume_retains {id nextRequest : Nat} {request : Request} {task : Task} {reply : Reply}
    {turn : SystemTurn} (carries : Carries s) (waits : s.tasks id = some (request, task))
    (resumed : resume env moment nextRequest s.db task reply = some turn) :
    SystemRetains env s.db turn := by
  have turns := resume_carries env (carries id request task waits) resumed
  refine ⟨.of_wrote turns.extends_ (resume_wrote env waits resumed), turns.next,
    fun _ _ _ next => ?_⟩
  cases resume_withdraw env resumed next

theorem resumeUnder_retains {id nextRequest : Nat} {request : Request} {task : Task}
    {reply : Reply} {turn : SystemTurn} (carries : Carries s)
    (waits : s.tasks id = some (request, task))
    (resumed : resumeUnder moment faults env nextRequest s.db task reply = some turn) :
    SystemRetains env s.db turn := by
  have current := carries id request task waits
  unfold resumeUnder at resumed
  split at resumed
  · next asked vault call answer =>
    cases resumed
    cases answer with
    | error failure => exact (TurnRetains.of_ended ⟨Retains.refl s.db, rfl⟩).system
    | ok txHash => exact (authorizeUnder_retains ..).system
  · obtain ⟨own, went, rfl⟩ := Option.map_eq_some_iff.mp resumed
    exact (resumeRacingUnder_retains env.toConfig moment faults s.db _ current went).system
  · obtain ⟨own, went, rfl⟩ := Option.map_eq_some_iff.mp resumed
    exact (resumeOrphanedUnder_retains env.toConfig moment faults s.db current went).system
  · exact resume_retains moment carries waits resumed

theorem expireUnder_retains {id : Nat} {request : Request} {task : Task} {turn : SystemTurn}
    (carries : Carries s) (waits : s.tasks id = some (request, task))
    (expired : expireUnder moment faults s.db task = some turn) : SystemRetains env s.db turn := by
  have current := carries id request task waits
  unfold expireUnder at expired
  split at expired
  · cases expired
    exact (loseRaceUnder_retains moment faults s.db _ current).system
  · next other =>
    cases expire_expired expired with
    | racing => exact absurd rfl (other _ _)

/-- A handler's turn in the state: the rows that handlers carry, and the calls that they wait for. -/
theorem settle_retains {heard : State} {own : Nat} {asked : Request} {turn : SystemTurn}
    (carries : Carries heard) (same : heard.tasks = s.tasks) (db : heard.db = s.db)
    (turns : SystemRetains env s.db turn) :
    Carries (settle heard own asked turn) ∧ ∀ id request withdrawal vault call,
      (settle heard own asked turn).tasks id =
          some (request, .withdraw (.executing withdrawal vault call)) →
        s.tasks id = some (request, .withdraw (.executing withdrawal vault call)) ∨
          ∃ body, withdrawGate env.senderAddress env.crypto s.db body =
            .ok (.submit withdrawal vault call) := by
  refine ⟨settle_carries carries ⟨db ▸ turns.retains.extends_, turns.carries⟩, ?_⟩
  intro id request withdrawal vault call waits
  rw [settle_tasks, same] at waits
  split_ifs at waits
  · obtain ⟨later, next, told⟩ := Option.map_eq_some_iff.mp waits
    cases told
    exact Or.inr (turns.calls _ _ _ next)
  · exact Or.inl waits

/-- Whatever throws, a step keeps the authorizations and the vaults, and a Starknet call that a
handler waits for was admitted. -/
theorem stepUnder_retains {label : Label} (carries : Carries s)
    (stepped : stepUnder env s (label, faults) = some s') :
    Retains s.db s'.db ∧ Carries s' ∧ ∀ id request withdrawal vault call,
      s'.tasks id = some (request, .withdraw (.executing withdrawal vault call)) →
        s.tasks id = some (request, .withdraw (.executing withdrawal vault call)) ∨
          ∃ body, withdrawGate env.senderAddress env.crypto s.db body =
            .ok (.submit withdrawal vault call) := by
  cases stepUnder_stepped env stepped with
  | @request id request moment idle =>
      have turns : SystemRetains env s.db _ :=
        beginUnder_retains moment faults s.issued s.db request
      exact ⟨turns.retains, settle_retains carries rfl rfl turns⟩
  | @reply id request task reply moment turn waits resumed =>
      have turns := resumeUnder_retains moment faults carries waits resumed
      exact ⟨turns.retains, settle_retains carries rfl rfl turns⟩
  | @timeout id request task moment turn waits expired =>
      have turns : SystemRetains env s.db turn :=
        expireUnder_retains moment faults carries waits expired
      exact ⟨turns.retains, settle_retains carries rfl rfl turns⟩
  | land => exact ⟨Retains.refl _, carries, fun _ _ _ _ _ waits => Or.inl waits⟩
  | block fresh => exact ⟨Retains.refl _, carries, fun _ _ _ _ _ waits => Or.inl waits⟩

end Steps

end PrivateBtc.Backend.StatementFaults
