/- PrivateBtc/Backend/Deposits
   digest: The routes that create and confirm vault rows, turn by turn. -/

import PrivateBtc.Backend.Calldata
import PrivateBtc.Backend.Payments
import PrivateBtc.Backend.Starknet

set_option autoImplicit false
set_option relaxedAutoImplicit false

namespace PrivateBtc.Backend.Deposits

open Library Library.JsText Library.Outcome
open Calldata (Invocation SpvDepositParams)
open CryptoService Database Http Starknet
open Payments (Config)

structure PrepareBody where
  headers : Headers
  ownerAddress : Option Text
  amountSats : Option Field
  lockDurationDays : Option Double

structure Preparing where
  ownerAddress : Text
  amount : Nat
  lockDays : Nat

def amountOf : Option Field → Option Int
  | some (.text value) => bigInt value
  | some (.number value) => value.toBigInt
  | none => none

def lockDuration (days : Option Double) : Option Nat :=
  [30, 90, 365].find? fun valid : Nat => days == some (.finite valid)

def getApy (lockDays : Nat) : ℚ :=
  if lockDays = 30 then 6 / 100 else if lockDays = 90 then 12 / 100 else 18 / 100

def PrepareBody.validate (body : PrepareBody) : Except Rejection Preparing := do
  validateBody body.headers [("ownerAddress", body.ownerAddress.map .text),
    ("amountSats", body.amountSats), ("lockDurationDays", body.lockDurationDays.map .number)]
  let ownerAddress := body.ownerAddress.getD []
  refuse (!isValidAddress ownerAddress) 400
    "Invalid ownerAddress — must match 0x + 63-66 hex chars"
  match lockDuration body.lockDurationDays with
  | none => throw ⟨400, "lockDurationDays must be 30, 90, or 365"⟩
  | some lockDays =>
      match amountOf body.amountSats with
      | none => throw ⟨400, "amountSats must be a valid integer (satoshis)"⟩
      | some amount =>
          refuse (amount ≤ 0) 400 "amountSats must be > 0"
          pure ⟨ownerAddress, amount.toNat, lockDays⟩

structure ConfirmBody where
  headers : Headers
  vaultId : Option Text
  txHash : Option Text

/-- The columns of the row that the handler keeps in `vault`. -/
structure Confirming where
  vaultId : Text
  commitment : Text
  encryptedAmount : Text

structure SpvDepositBody extends SpvDepositParams where
  bitcoinTxid : Option Text
  vaultId : Option Text
  nullifierHash : Option Text
  amount : Option Double
  depositSenderAddress : Option Text

def isHexDigit (c : Char) : Bool := (digitIn 16 c).isSome

def matchesEach : List (Char → Bool) → Text → Bool
  | [], [] => true
  | test :: tests, c :: rest => test c && matchesEach tests rest
  | _, _ => false

def uuidPattern : List (Char → Bool) :=
  let hex := fun count => List.replicate count isHexDigit
  let dash := [fun c => c == '-']
  hex 8 ++ dash ++ hex 4 ++ dash ++ (fun c => '1' ≤ c && c ≤ '8') :: hex 3 ++ dash ++
    (fun c => ['8', '9', 'a', 'b', 'A', 'B'].contains c) :: hex 3 ++ dash ++ hex 12

def uniform (digit : Char) : List (Char → Bool) :=
  let same := fun count => List.replicate count fun c : Char => c == digit
  let dash := [fun c => c == '-']
  same 8 ++ dash ++ same 4 ++ dash ++ same 4 ++ dash ++ same 4 ++ dash ++ same 12

def isUuid (text : Text) : Bool :=
  matchesEach uuidPattern text || matchesEach (uniform '0') text || matchesEach (uniform 'f') text

def hex0x : Text := ['0', 'x']

def isPositive : Double → Bool
  | .finite value => 0 < value
  | _ => false

def safeInteger (n : Nat) : Bool := n < 2 ^ 53

/-- The zod schema, over bodies whose numbers are already of the right kind. -/
def SpvDepositBody.accepted (body : SpvDepositBody) : Bool :=
  hex0x.isPrefixOf body.commitment && 0 < body.blockHeight && safeInteger body.blockHeight &&
    safeInteger body.txPos && safeInteger body.voutIndex &&
    body.merkleProofWords.all (fun words => words.length == 8) &&
    body.vaultId.all isUuid && body.amount.all isPositive &&
    body.depositSenderAddress.all fun address => ['t', 'b', '1'].isPrefixOf address

structure RelayDepositBody where
  vaultId : Text
  commitment : Text
  amount : Double
  ownerAddress : Option Text
  bitcoinTxid : Option Text
  secret : Option Text
  salt : Option Text
  randomnessHint : Option Text

def RelayDepositBody.accepted (body : RelayDepositBody) : Bool :=
  isUuid body.vaultId && hex0x.isPrefixOf body.commitment && isPositive body.amount &&
    body.ownerAddress.all fun address => hex0x.isPrefixOf address

def ALLOWED_DENOMINATIONS_BTC : List ℚ := [1 / 10000, 1 / 1000, 1 / 100, 1 / 10]

def isAllowedDenomination (btcAmount : Double) : Bool :=
  ALLOWED_DENOMINATIONS_BTC.any fun btc =>
    match Double.ofRat btc, btcAmount with
    | .finite d, .finite amount => |d - amount| < 1 / 10 ^ 12
    | _, _ => false

/-- The constants that commitment/deposit has computed before it calls the chain. -/
structure Relaying where
  body : RelayDepositBody
  ownerAddress : Text
  salt : Text
  randomnessHint : Text
  nullifierHash : Option Text
  amountInWei : Int
  encryptedAmount : Text

inductive Executing where
  | spv (body : SpvDepositBody)
  | relay (relaying : Relaying)

/-- Who goes on once `waitForTransaction` returns. -/
inductive Confirmed where
  | confirm (confirming : Confirming)
  | spv (body : SpvDepositBody)
  | relay (relaying : Relaying)

inductive DepositTask where
  | balance (preparing : Preparing)
  | header (body : SpvDepositBody) (attempt : Nat)
  | executing (executing : Executing)
  | waiting (txHash : Text) (attempt : Nat) (confirmed : Confirmed)
  | depositEvent (txHash : Text) (confirming : Confirming)
  | block (txHash : Text) (confirming : Confirming) (blockNumber : Nat)

inductive DepositAnswer where
  | prepared (vaultId commitment nullifierHash encryptedRandomness : Text) (unlockAt : Nat)
      (apy : ℚ)
  | confirmed (vaultId txHash : Text) (blockNumber blockTimestamp : Nat)
  | deposited (txHash : Text) (bitcoinTxid vaultId : Option Text)

abbrev DepositTurn := Turn DepositTask DepositAnswer

variable (cfg : Config) (moment : Moment)

def prepareDeposit (db : Db) (body : PrepareBody) : DepositTurn :=
  .orReject db body.validate fun preparing => .wait db (.balance preparing)

/-- The row that prepare-deposit inserts. -/
def preparedRow (preparing : Preparing) : Except String VaultRow := do
  let random := moment.random
  let salt := generateSalt random
  let randomness := generateRandomness random
  let commitment ← generateCommitment cfg.crypto (toText 10 preparing.amount) randomness
  let nullifierHash ← generateNullifier cfg.crypto commitment randomness
  pure
    { id := random.uuid
      ownerAddress := preparing.ownerAddress
      commitment
      encryptedAmount := encryptAmount cfg.crypto random.iv preparing.amount salt
      salt
      randomnessHint := encryptRandomness cfg.crypto random.iv2 randomness salt
      lockDurationDays := preparing.lockDays
      createdAt := moment.nowSecs
      unlockAt := moment.nowSecs + preparing.lockDays * 86400
      status := .pending
      nullifierHash := some nullifierHash }

def insertPrepared (row : VaultRow) : Statement := fun db => do
  insertCommitment { commitment := row.commitment, vaultId := row.id } (← insertVault row db)

def afterBalance (db : Db) (preparing : Preparing) : Except String Nat → DepositTurn
  | .error message => .reject db ⟨500, message⟩
  | .ok liveBalance =>
      if liveBalance < preparing.amount then
        .reject db ⟨400, "Insufficient MockBTC balance on-chain"⟩
      else
        .orReject db (internalError (preparedRow cfg moment preparing)) fun row =>
          .commit db (internalError (insertPrepared row db))
            (.prepared row.id row.commitment (row.nullifierHash.getD []) row.randomnessHint
              row.unlockAt (getApy preparing.lockDays))

def confirmDeposit (db : Db) (body : ConfirmBody) : DepositTurn :=
  .orReject db
    (do
      validateBody body.headers [("vaultId", body.vaultId.map .text),
        ("txHash", body.txHash.map .text)]
      validateTxHash (body.txHash.getD [])
      match vaultById db (body.vaultId.getD []) with
      | none => throw ⟨404, "Vault not found"⟩
      | some vault =>
          refuse (vault.status != .pending) 400
            s!"Vault is already {vault.status.text} — cannot confirm again"
          pure ⟨vault.id, vault.commitment, vault.encryptedAmount⟩)
    fun confirming => .wait db (.waiting (body.txHash.getD []) 1 (.confirm confirming))

/-- The `catch` of confirm-deposit. -/
def confirmError : Thrown → Rejection
  | .notFound txHash => ⟨404, (Thrown.notFound txHash).message⟩
  | .other message => ⟨500, message⟩
  | error => ⟨400, error.message⟩

def afterDepositEvent (db : Db) (txHash : Text) (confirming : Confirming)
    (reply : Except String TransactionReceipt) : DepositTurn :=
  match getTransactionReceipt txHash reply with
  | .error error => .reject db (confirmError error)
  | .ok receipt =>
      match verifyDepositEvent cfg.vaultContractAddress receipt confirming.commitment with
      | .error error => .reject db (confirmError error)
      | .ok false => .reject db ⟨400, "Deposit event not found on-chain for this commitment"⟩
      | .ok true => .wait db (.block txHash confirming receipt.blockNumber)

/-- The transaction of confirm-deposit. -/
def activate (txHash : Text) (confirming : Confirming) (blockNumber blockTimestamp : Nat) :
    Statement := fun db => do
  let db ← updateVaults (fun v => v.id == confirming.vaultId)
    (fun v => { v with status := .active, depositTxHash := some txHash }) db
  let db ← updateCommitments (fun c => c.vaultId == confirming.vaultId)
    (fun c => { c with blockNumber := some blockNumber }) db
  insertTransaction
    { id := moment.random.uuid, vaultId := confirming.vaultId, txHash, type := .deposit,
      amountEncrypted := confirming.encryptedAmount, blockNumber := some blockNumber,
      blockTimestamp := some blockTimestamp, succeeded := true, timestamp := moment.nowSecs } db

def afterBlock (db : Db) (txHash : Text) (confirming : Confirming) (blockNumber : Nat)
    (timestamp : Option Nat) : DepositTurn :=
  .commit db
    (internalError (activate moment txHash confirming blockNumber (timestamp.getD 0) db))
    (.confirmed confirming.vaultId txHash blockNumber (timestamp.getD 0))

/-- The `catch` of spv-deposit. -/
def spvError (message : String) : Rejection :=
  if mentions message "Block header not relayed" then
    ⟨503, "Bitcoin block header not yet available on Starknet. Please wait and retry."⟩
  else if mentions message "INSUFFICIENT SEPOLIA ETH" then ⟨402, message⟩
  else ⟨500, message⟩

def headerAttempts : Nat := 24

def spvDeposit (db : Db) (body : SpvDepositBody) : DepositTurn :=
  if body.accepted then .wait db (.header body 1) else .reject db ⟨400, "Validation failed"⟩

def afterHeader (db : Db) (body : SpvDepositBody) (attempt : Nat) (stored : Bool) : DepositTurn :=
  if stored then .wait db (.executing (.spv body))
  else if attempt < headerAttempts then .wait db (.header body (attempt + 1))
  else
    .reject db ⟨503, s!"Bitcoin block header {body.blockHeight} not yet relayed to Starknet. " ++
      "Please wait a moment and try again."⟩

/-- `BigInt(Math.floor(amount * 1e18))`; an absent amount is zero. -/
def amountInWei : Option Double → Option Int
  | some amount => (amount.mul (.finite 1000000000000000000)).floor.toBigInt
  | none => some 0

def notAnInteger : String :=
  "The number Infinity cannot be converted to a BigInt because it is not an integer"

def spvRow (body : SpvDepositBody) (vaultId nullifierHash txHash : Text) (amount : Int) :
    VaultRow :=
  let salt := generateSalt moment.random
  { id := vaultId
    ownerAddress := cfg.accountAddress
    commitment := body.commitment
    encryptedAmount := encryptAmount cfg.crypto moment.random.iv amount salt
    salt
    randomnessHint := generateRandomness moment.random
    lockDurationDays := 30
    createdAt := moment.now
    unlockAt := moment.now + 86400 * 30
    status := .active
    depositTxHash := some txHash
    bitcoinTxid := body.bitcoinTxid
    nullifierHash := some nullifierHash
    depositSenderAddress := body.depositSenderAddress }

/-- INSERT .. ON CONFLICT(id) DO UPDATE: the conflict keeps commitment and amount. -/
def storeSpv (row : VaultRow) : Statement := fun db =>
  if (vaultById db row.id).isSome then
    updateVaults (fun v => v.id == row.id)
      (fun v => { v with
        depositTxHash := row.depositTxHash
        bitcoinTxid := row.bitcoinTxid
        nullifierHash := v.nullifierHash.or row.nullifierHash
        depositSenderAddress := v.depositSenderAddress.or row.depositSenderAddress
        status := .active }) db
  else insertVault row db

/-- A statement whose failure is only logged. -/
def orLogged (statement : Statement) (db : Db) : Db :=
  match statement db with
  | .ok db' => db'
  | .error _ => db

/-- The ids under which spv-deposit stores the vault. -/
def SpvDepositBody.stores (body : SpvDepositBody) : Option (Text × Text) :=
  match body.vaultId, body.nullifierHash with
  | some vaultId, some nullifierHash =>
      if vaultId.isEmpty || nullifierHash.isEmpty then none else some (vaultId, nullifierHash)
  | _, _ => none

def afterSpv (db : Db) (txHash : Text) (body : SpvDepositBody) : DepositTurn :=
  let answer := .deposited txHash body.bitcoinTxid body.vaultId
  match body.stores with
  | none => .reply db answer
  | some (vaultId, nullifierHash) =>
      match amountInWei body.amount with
      | none => .reject db (spvError notAnInteger)
      | some amount =>
          .reply (orLogged (storeSpv (spvRow cfg moment body vaultId nullifierHash txHash amount))
            db) answer

/-- The `catch` of commitment/deposit. -/
def relayError (message : String) : Rejection :=
  if mentions message "INSUFFICIENT SEPOLIA ETH" then ⟨402, message⟩ else ⟨500, message⟩

/-- A default for an absent or empty text. -/
def orElse : Option Text → Text → Text
  | some text, other => if text.isEmpty then other else text
  | none, other => other

def startRelay (body : RelayDepositBody) : Except Rejection Relaying := do
  refuse (!body.accepted) 400 "Validation failed"
  refuse (!isAllowedDenomination body.amount) 400
    ("Amount " ++ String.ofList body.amount.toText ++ " BTC is not a valid denomination. " ++
      "Allowed: 0.0001, 0.001, 0.01, 0.1 BTC")
  let salt := orElse body.salt (generateSalt moment.random)
  let randomnessHint := orElse body.randomnessHint (generateRandomness moment.random)
  let nullifierHash ←
    match body.secret with
    | some secret =>
        if secret.isEmpty then pure none
        else do
          let nullifierHash ← internalError (generateNullifier cfg.crypto body.commitment secret)
          pure (some nullifierHash)
    | none => pure none
  match amountInWei (some body.amount) with
  | none => throw ⟨500, notAnInteger⟩
  | some amountInWei =>
      let encryptedAmount := encryptAmount cfg.crypto moment.random.iv amountInWei salt
      pure { body, ownerAddress := body.ownerAddress.getD cfg.accountAddress, salt, randomnessHint,
             nullifierHash, amountInWei, encryptedAmount }

def relayDeposit (db : Db) (body : RelayDepositBody) : DepositTurn :=
  .orReject db (startRelay cfg moment body) fun relaying => .wait db (.executing (.relay relaying))

def SIMULATED : Text := ['S', 'I', 'M', 'U', 'L', 'A', 'T', 'E', 'D']

def relayRow (relaying : Relaying) (txHash : Text) : VaultRow where
  id := relaying.body.vaultId
  ownerAddress := relaying.ownerAddress
  commitment := relaying.body.commitment
  encryptedAmount := relaying.encryptedAmount
  salt := relaying.salt
  randomnessHint := relaying.randomnessHint
  lockDurationDays := 30
  createdAt := moment.now
  unlockAt := moment.now + 86400
  status := .active
  depositTxHash := some txHash
  bitcoinTxid := relaying.body.bitcoinTxid
  nullifierHash := relaying.nullifierHash

def relayTransaction (relaying : Relaying) (txHash : Text) : TransactionRow where
  id := relaying.body.vaultId
  vaultId := relaying.body.vaultId
  txHash := txHash
  type := .deposit
  amountEncrypted := relaying.encryptedAmount
  timestamp := moment.now

/-- The first transaction of commitment/deposit. -/
def insertRelayed (relaying : Relaying) (txHash : Text) : Statement := fun db => do
  insertTransaction (relayTransaction moment relaying txHash)
    (← insertVault (relayRow moment relaying txHash) db)

/-- The second one, after a UNIQUE violation. -/
def updateRelayed (relaying : Relaying) (txHash : Text) : Statement := fun db => do
  let db ← updateVaults (fun v => v.id == relaying.body.vaultId)
    (fun v => { v with
      depositTxHash := some txHash
      bitcoinTxid := relaying.body.bitcoinTxid
      nullifierHash := v.nullifierHash.or relaying.nullifierHash
      status := .active }) db
  pure (orLogged (insertTransaction (relayTransaction moment relaying txHash)) db)

def storeRelayed (relaying : Relaying) (txHash : Text) : Statement := fun db =>
  match insertRelayed moment relaying txHash db with
  | .ok db' => .ok db'
  | .error message =>
      if message = "UNIQUE constraint failed" then updateRelayed moment relaying txHash db
      else .error message

def afterRelay (db : Db) (txHash : Text) (relaying : Relaying) : DepositTurn :=
  match storeRelayed moment relaying txHash db with
  | .ok db' =>
      .reply db' (.deposited txHash relaying.body.bitcoinTxid (some relaying.body.vaultId))
  | .error message => .reject db (relayError message)

def afterExecuted (db : Db) : Executing → Except ExecuteFailure Text → DepositTurn
  | .spv _, .error failure =>
      .reject db (spvError (executeMessage "SPV deposit" ["insufficient"] failure))
  | .relay _, .error failure =>
      .reject db
        (relayError (executeMessage "Deposit execution" ["balance is smaller", "insufficient"]
          failure))
  | .spv body, .ok txHash => .wait db (.waiting txHash 1 (.spv body))
  | .relay relaying, .ok txHash =>
      if txHash.isEmpty || SIMULATED.isPrefixOf txHash then
        .reject db ⟨502, "Starknet returned no valid transaction hash"⟩
      else .wait db (.waiting txHash 1 (.relay relaying))

def waitError : Confirmed → Thrown → Rejection
  | .confirm _, error => confirmError error
  | .spv _, error => spvError error.message
  | .relay _, error => relayError error.message

def afterConfirmed (db : Db) (txHash : Text) : Confirmed → DepositTurn
  | .confirm confirming => .wait db (.depositEvent txHash confirming)
  | .spv body => afterSpv cfg moment db txHash body
  | .relay relaying => afterRelay moment db txHash relaying

def afterReceipt (db : Db) (txHash : Text) (attempt : Nat) (confirmed : Confirmed)
    (reply : Except String TransactionReceipt) : DepositTurn :=
  match waitOnce txHash attempt reply with
  | .confirmed _ => afterConfirmed cfg moment db txHash confirmed
  | .failed error => .reject db (waitError confirmed error)
  | .again attempt => .wait db (.waiting txHash attempt confirmed)

/-- One turn of a deposit handler; `none` when it waits for something else. -/
def resumeDeposit (db : Db) : DepositTask → RpcReply → Option DepositTurn
  | .balance preparing, .balance reply => some (afterBalance cfg moment db preparing reply)
  | .header body attempt, .headerStored stored => some (afterHeader db body attempt stored)
  | .executing executing, .executed reply => some (afterExecuted db executing reply)
  | .waiting txHash attempt confirmed, .receipt reply =>
      some (afterReceipt cfg moment db txHash attempt confirmed reply)
  | .depositEvent txHash confirming, .receipt reply =>
      some (afterDepositEvent cfg db txHash confirming reply)
  | .block txHash confirming blockNumber, .timestamp reply =>
      some (afterBlock moment db txHash confirming blockNumber reply)
  | _, _ => none

/-- What a turn of a deposit handler has written. -/
inductive DepositWrites (db : Db) (task : DepositTask) (reply : RpcReply) : Db → Prop where
  | nothing : DepositWrites db task reply db
  | prepared {preparing : Preparing} {row : VaultRow} {db' : Db}
      (waited : task = .balance preparing) (made : preparedRow cfg moment preparing = .ok row)
      (stored : insertPrepared row db = .ok db') : DepositWrites db task reply db'
  | spv {txHash vaultId nullifierHash : Text} {attempt : Nat} {body : SpvDepositBody}
      {receipt : TransactionReceipt} {amount : Int} {db' : Db}
      (waited : task = .waiting txHash attempt (.spv body)) (shown : reply = .receipt (.ok receipt))
      (succeeded : receipt.succeeded = true) (stores : body.stores = some (vaultId, nullifierHash))
      (converted : amountInWei body.amount = some amount)
      (stored : storeSpv (spvRow cfg moment body vaultId nullifierHash txHash amount) db = .ok db') :
      DepositWrites db task reply db'
  | relayed {txHash : Text} {attempt : Nat} {relaying : Relaying} {receipt : TransactionReceipt}
      {db' : Db} (waited : task = .waiting txHash attempt (.relay relaying))
      (shown : reply = .receipt (.ok receipt)) (succeeded : receipt.succeeded = true)
      (stored : storeRelayed moment relaying txHash db = .ok db') : DepositWrites db task reply db'
  | activated {txHash : Text} {confirming : Confirming} {blockNumber timestamp : Nat} {db' : Db}
      (waited : task = .block txHash confirming blockNumber)
      (stored : activate moment txHash confirming blockNumber timestamp db = .ok db') :
      DepositWrites db task reply db'

theorem afterBalance_writes (db : Db) (preparing : Preparing) (answer : Except String Nat)
    (reply : RpcReply) :
    DepositWrites cfg moment db (.balance preparing) reply
      (afterBalance cfg moment db preparing answer).db := by
  unfold afterBalance
  cases answer with
  | error message => exact .nothing
  | ok liveBalance =>
      dsimp only
      split_ifs
      · exact .nothing
      · cases made : preparedRow cfg moment preparing with
        | error message => exact .nothing
        | ok row =>
            simp only [internalError, Turn.orReject]
            cases stored : insertPrepared row db with
            | error message => exact .nothing
            | ok db' => exact .prepared rfl made stored

theorem afterReceipt_writes (db : Db) (txHash : Text) (attempt : Nat) (confirmed : Confirmed)
    (answer : Except String TransactionReceipt) :
    DepositWrites cfg moment db (.waiting txHash attempt confirmed) (.receipt answer)
      (afterReceipt cfg moment db txHash attempt confirmed answer).db := by
  unfold afterReceipt
  cases waited : waitOnce txHash attempt answer with
  | failed error => exact .nothing
  | again attempt => exact .nothing
  | confirmed receipt =>
      obtain ⟨rfl, succeeded⟩ := waitOnce_confirmed waited
      cases confirmed with
      | confirm confirming => exact .nothing
      | spv body =>
          simp only [afterConfirmed, afterSpv]
          cases stores : body.stores with
          | none => exact .nothing
          | some ids =>
              rcases ids with ⟨vaultId, nullifierHash⟩
              dsimp only
              cases converted : amountInWei body.amount with
              | none => exact .nothing
              | some amount =>
                  simp only [Turn.reply, orLogged]
                  split
                  · next db' stored => exact .spv rfl rfl succeeded stores converted stored
                  · exact .nothing
      | relay relaying =>
          simp only [afterConfirmed, afterRelay]
          cases stored : storeRelayed moment relaying txHash db with
          | error message => exact .nothing
          | ok db' => exact .relayed rfl rfl succeeded stored

theorem resumeDeposit_writes {db : Db} {task : DepositTask} {reply : RpcReply}
    {turn : DepositTurn} (resumed : resumeDeposit cfg moment db task reply = some turn) :
    DepositWrites cfg moment db task reply turn.db := by
  unfold resumeDeposit at resumed
  split at resumed
  · cases resumed
    exact afterBalance_writes ..
  · next body attempt stored =>
    cases resumed
    unfold afterHeader
    split_ifs <;> exact .nothing
  · next executing answer =>
    cases resumed
    rcases executing with body | relaying <;> rcases answer with failure | txHash <;>
      try exact .nothing
    unfold afterExecuted
    dsimp only
    split_ifs <;> exact .nothing
  · cases resumed
    exact afterReceipt_writes ..
  · next txHash confirming answer =>
    cases resumed
    unfold afterDepositEvent
    split
    · exact .nothing
    · split <;> exact .nothing
  · next txHash confirming blockNumber timestamp =>
    cases resumed
    simp only [afterBlock]
    cases stored : activate moment txHash confirming blockNumber (timestamp.getD 0) db with
    | error message => exact .nothing
    | ok db' => exact .activated rfl stored
  · cases resumed

/-- How a deposit handler comes to wait. -/
inductive Awaiting (task : DepositTask) (reply : RpcReply) : DepositTask → Prop where
  | header {body : SpvDepositBody} {attempt : Nat} (was : task = .header body attempt) :
      Awaiting task reply (.header body (attempt + 1))
  | execute {body : SpvDepositBody} {attempt : Nat} (was : task = .header body attempt)
      (answer : reply = .headerStored true) : Awaiting task reply (.executing (.spv body))
  | again {txHash : Text} {attempt attempt' : Nat} {confirmed : Confirmed}
      (was : task = .waiting txHash attempt confirmed) :
      Awaiting task reply (.waiting txHash attempt' confirmed)
  | spv {txHash : Text} {body : SpvDepositBody} (was : task = .executing (.spv body))
      (answer : reply = .executed (.ok txHash)) :
      Awaiting task reply (.waiting txHash 1 (.spv body))
  | relay {txHash : Text} {relaying : Relaying} (was : task = .executing (.relay relaying))
      (answer : reply = .executed (.ok txHash)) :
      Awaiting task reply (.waiting txHash 1 (.relay relaying))
  | event {txHash : Text} {attempt : Nat} {confirming : Confirming} {receipt : TransactionReceipt}
      (was : task = .waiting txHash attempt (.confirm confirming))
      (shown : reply = .receipt (.ok receipt)) (succeeded : receipt.succeeded = true) :
      Awaiting task reply (.depositEvent txHash confirming)
  | block {txHash : Text} {confirming : Confirming} {receipt : TransactionReceipt}
      (was : task = .depositEvent txHash confirming) (shown : reply = .receipt (.ok receipt))
      (verified : verifyDepositEvent cfg.vaultContractAddress receipt confirming.commitment =
        .ok true) :
      Awaiting task reply (.block txHash confirming receipt.blockNumber)

theorem commit_next {T A : Type} {db : Db} {written : Except Rejection Db} {answer : A} :
    (Turn.commit db written answer : Turn T A).next = none := by
  cases written <;> rfl

theorem afterBalance_next {db : Db} {preparing : Preparing} {answer : Except String Nat} :
    (afterBalance cfg moment db preparing answer).next = none := by
  unfold afterBalance
  cases answer with
  | error message => rfl
  | ok liveBalance =>
      dsimp only
      split_ifs
      · rfl
      · cases internalError (preparedRow cfg moment preparing) with
        | error rejection => rfl
        | ok row => exact commit_next

theorem afterReceipt_awaiting {db : Db} {txHash : Text} {attempt : Nat} {confirmed : Confirmed}
    {answer : Except String TransactionReceipt} {later : DepositTask}
    (next : (afterReceipt cfg moment db txHash attempt confirmed answer).next = some later) :
    Awaiting cfg (.waiting txHash attempt confirmed) (.receipt answer) later := by
  unfold afterReceipt at next
  cases waited : waitOnce txHash attempt answer with
  | failed error =>
      rw [waited] at next
      cases next
  | again attempt' =>
      rw [waited] at next
      cases next
      exact .again rfl
  | confirmed receipt =>
      obtain ⟨rfl, succeeded⟩ := waitOnce_confirmed waited
      rw [waited] at next
      cases confirmed with
      | confirm confirming =>
          cases next
          exact .event rfl rfl succeeded
      | spv body =>
          simp only [afterConfirmed, afterSpv] at next
          split at next
          · cases next
          · split at next <;> cases next
      | relay relaying =>
          simp only [afterConfirmed, afterRelay] at next
          split at next <;> cases next

theorem resumeDeposit_awaiting {db : Db} {task later : DepositTask} {reply : RpcReply}
    {turn : DepositTurn} (resumed : resumeDeposit cfg moment db task reply = some turn)
    (next : turn.next = some later) : Awaiting cfg task reply later := by
  unfold resumeDeposit at resumed
  split at resumed
  · cases resumed
    rw [afterBalance_next] at next
    cases next
  · next body attempt stored =>
    cases resumed
    unfold afterHeader at next
    split_ifs at next with there more
    · cases next
      subst there
      exact .execute rfl rfl
    · cases next
      exact .header rfl
    · cases next
  · next executing answer =>
    cases resumed
    rcases executing with body | relaying <;> rcases answer with failure | hash
    · cases next
    · cases next
      exact .spv rfl rfl
    · cases next
    · unfold afterExecuted at next
      dsimp only at next
      split_ifs at next
      · cases next
      · cases next
        exact .relay rfl rfl
  · cases resumed
    exact afterReceipt_awaiting cfg moment next
  · next txHash confirming answer =>
    cases resumed
    unfold afterDepositEvent at next
    cases got : getTransactionReceipt txHash answer with
    | error error =>
        rw [got] at next
        cases next
    | ok receipt =>
        rw [got] at next
        dsimp only at next
        split at next
        · cases next
        · cases next
        · next verified =>
          cases next
          exact .block rfl (by rw [getTransactionReceipt_ok got]) verified
  · cases resumed
    rw [afterBlock, commit_next] at next
    cases next
  · cases resumed

theorem insertPrepared_ok {row : VaultRow} {db db' : Db} (done : insertPrepared row db = .ok db') :
    db'.vaults.rows = db.vaults.rows ++ [row] ∧ Apart db db' := by
  simp only [insertPrepared, bind_eq_ok] at done
  obtain ⟨db₁, inserted, registered⟩ := done
  obtain ⟨rows, stored⟩ := insertVault_ok inserted
  obtain ⟨kept, apart⟩ := insertCommitment_ok registered
  exact ⟨by rw [kept, rows], stored.trans apart⟩

/-- What confirm-deposit writes to its vault. -/
def activated (txHash : Text) (v : VaultRow) : VaultRow :=
  { v with status := .active, depositTxHash := some txHash }

theorem activate_ok {txHash : Text} {confirming : Confirming} {blockNumber timestamp : Nat}
    {db db' : Db} (done : activate moment txHash confirming blockNumber timestamp db = .ok db') :
    db'.vaults.rows = (db.vaults.rows.map fun v =>
      if v.id == confirming.vaultId then activated txHash v else v) ∧ Apart db db' := by
  simp only [activate, bind_eq_ok] at done
  obtain ⟨db₁, moved, db₂, numbered, logged⟩ := done
  obtain ⟨rows, first⟩ := updateVaults_ok moved
  obtain ⟨same, second⟩ := updateCommitments_ok numbered
  obtain ⟨kept, third⟩ := insertTransaction_ok logged
  exact ⟨by rw [kept, same, rows]; rfl, first.trans (second.trans third)⟩

/-- What a conflict of spv-deposit writes to the vault that is there. -/
def revived (row v : VaultRow) : VaultRow :=
  { v with
    depositTxHash := row.depositTxHash
    bitcoinTxid := row.bitcoinTxid
    nullifierHash := v.nullifierHash.or row.nullifierHash
    depositSenderAddress := v.depositSenderAddress.or row.depositSenderAddress
    status := .active }

/-- A stored vault is new, or it revives the row with its id and leaves its amount. -/
theorem storeSpv_ok {row : VaultRow} {db db' : Db} (done : storeSpv row db = .ok db') :
    (vaultById db row.id = none ∧ db'.vaults.rows = db.vaults.rows ++ [row] ∨
      (vaultById db row.id).isSome ∧ db'.vaults.rows = db.vaults.rows.map fun v =>
        if v.id == row.id then revived row v else v) ∧ Apart db db' := by
  unfold storeSpv at done
  split_ifs at done with known
  · obtain ⟨rows, apart⟩ := updateVaults_ok done
    exact ⟨Or.inr ⟨known, rows⟩, apart⟩
  · obtain ⟨rows, apart⟩ := insertVault_ok done
    exact ⟨Or.inl ⟨by simpa using known, rows⟩, apart⟩

theorem orLogged_insertTransaction (row : TransactionRow) (db : Db) :
    (orLogged (insertTransaction row) db).vaults = db.vaults ∧
      Apart db (orLogged (insertTransaction row) db) := by
  unfold orLogged
  split
  · next db' logged => exact insertTransaction_ok logged
  · exact ⟨rfl, Apart.refl db⟩

/-- What commitment/deposit writes to the vault that is there. -/
def relayRevived (relaying : Relaying) (txHash : Text) (v : VaultRow) : VaultRow :=
  { v with
    depositTxHash := some txHash
    bitcoinTxid := relaying.body.bitcoinTxid
    nullifierHash := v.nullifierHash.or relaying.nullifierHash
    status := .active }

theorem storeRelayed_ok {relaying : Relaying} {txHash : Text} {db db' : Db}
    (done : storeRelayed moment relaying txHash db = .ok db') :
    (db'.vaults.rows = db.vaults.rows ++ [relayRow moment relaying txHash] ∨
      db'.vaults.rows = db.vaults.rows.map fun v =>
        if v.id == relaying.body.vaultId then relayRevived relaying txHash v else v) ∧
      Apart db db' := by
  unfold storeRelayed at done
  split at done
  · next db₁ inserted =>
    cases done
    simp only [insertRelayed, bind_eq_ok] at inserted
    obtain ⟨db₁, stored, logged⟩ := inserted
    obtain ⟨rows, first⟩ := insertVault_ok stored
    obtain ⟨kept, second⟩ := insertTransaction_ok logged
    exact ⟨Or.inl (by rw [kept, rows]), first.trans second⟩
  · split_ifs at done
    simp only [updateRelayed, bind_eq_ok, pure_eq_ok, Except.ok.injEq] at done
    obtain ⟨db₁, moved, rfl⟩ := done
    obtain ⟨rows, first⟩ := updateVaults_ok moved
    obtain ⟨kept, second⟩ := orLogged_insertTransaction
      (relayTransaction moment relaying txHash) db₁
    exact ⟨Or.inr (by rw [kept, rows]; rfl), first.trans second⟩

theorem DepositWrites.apart {db db' : Db} {task : DepositTask} {reply : RpcReply}
    (writes : DepositWrites cfg moment db task reply db') : Apart db db' := by
  cases writes with
  | nothing => exact Apart.refl db
  | prepared _ _ stored => exact (insertPrepared_ok stored).2
  | spv _ _ _ _ _ stored => exact (storeSpv_ok stored).2
  | relayed _ _ _ stored => exact (storeRelayed_ok moment stored).2
  | activated _ stored => exact (activate_ok moment stored).2

end PrivateBtc.Backend.Deposits
