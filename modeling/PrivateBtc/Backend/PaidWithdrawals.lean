/- PrivateBtc/Backend/PaidWithdrawals
   digest: An admitted withdrawal is carried through: paid at once, or by the next poll that can. -/

import PrivateBtc.Backend.AcknowledgedDeposits
import PrivateBtc.Backend.BurnGrants
import PrivateBtc.Backend.Polls

set_option autoImplicit false
set_option relaxedAutoImplicit false

namespace PrivateBtc.Backend.PaidWithdrawals

open Library Library.JsText Library.Outcome
open Authorizations CryptoService Database Http Payments Polls Server Starknet Withdrawals
open Processor (wellFormed)
open BurnGrants (Storable createAuthorization_accepted like_of_prefix)
open WithdrawGate (WithdrawBody WithdrawCall WithdrawRequest tb1 withdrawGate)

/-- What the mempool answers to the immediate attempt, before its twenty seconds are over. -/
structure Attempt where
  utxos : Except String (List Utxo × ℚ)
  utxosAt : Moment
  broadcast : Except String Text
  broadcastAt : Moment

/-- The withdrawal that the route records. -/
structure Burn where
  request : WithdrawRequest
  vault : VaultRow
  txHash : Text
  amountSats : Int
  burnedAt : Moment

def Burn.withdrawing (burn : Burn) : Withdrawing :=
  ⟨burn.request, burn.vault.id, burn.txHash, false⟩

def Burn.auth (burn : Burn) : WithdrawalAuthorization :=
  AuthorizationParams.row
    { vaultId := burn.vault.id
      nullifierHash := burn.request.nullifierHash
      starknetTxHash := burn.txHash
      bitcoinAddress := burn.request.bitcoinAddress
      amountSats := actualSats burn.amountSats }
    burn.burnedAt.random.uuid burn.burnedAt.nowSecs

/-- The entry in the log of transactions. -/
def Burn.logged (burn : Burn) (moment : Moment) : TransactionRow where
  id := moment.random.uuid
  vaultId := burn.vault.id
  txHash := burn.txHash
  type := .withdraw
  amountEncrypted := burn.vault.encryptedAmount
  timestamp := moment.nowSecs

section Outcome

variable (cfg : Config) (attempt : Attempt) (burn : Burn)

/-- The payment of the immediate attempt, if it comes that far. -/
def built : Option Payment :=
  if ready cfg burn.auth then
    (attempt.utxos.bind fun told => buildFor cfg burn.auth told.1 told.2).toOption
  else none

/-- The txid that the attempt records; a blank one is no result. -/
def paidNow : Option Text :=
  if (built cfg attempt burn).isSome then
    attempt.broadcast.toOption.filter fun txid => !txid.isEmpty
  else none

def handedNow : Option Broadcast :=
  (built cfg attempt burn).map fun payment =>
    ⟨burn.auth.id, payment, attempt.broadcast.toOption.isSome⟩

/-- The moment of the turn that closes the vault. -/
def closedAt : Moment :=
  if (built cfg attempt burn).isSome then attempt.broadcastAt
  else if ready cfg burn.auth then attempt.utxosAt
  else burn.burnedAt

/-- What comes to the attempt. -/
def attemptLabels (id : Nat) : List Label :=
  if ready cfg burn.auth then
    .reply id (.mempool (.utxos attempt.utxos)) attempt.utxosAt ::
      if (built cfg attempt burn).isSome then
        [.reply id (.mempool (.broadcast attempt.broadcast)) attempt.broadcastAt]
      else []
  else []

/-- Where an authorization stands that nobody has paid: only the covenant mode leaves it to the
polls. -/
def unpaidStatus : AuthStatus := if cfg.useCovenants then .pending else .failed

/-- The authorization is there with what it was created for, paid or not. -/
def Recorded (auth : WithdrawalAuthorization) (paid : Option Text) (db : Db) : Prop :=
  ∃ row, getAuthorizationById db auth.id = some row ∧ granted row = granted auth ∧
    row.status = (if paid.isSome then .completed else unpaidStatus cfg) ∧
    ∀ txid, paid = some txid → row.bitcoinTxid = some txid

/-- The turn closes the vault, with the authorization paid or not. -/
def Concludes (paid : Option Text) (moment : Moment) (db : Db) (turn : WithdrawTurn) : Prop :=
  ∃ d, Touches burn.auth.id db d ∧ Recorded cfg burn.auth paid d ∧
    turn = closeVault moment d burn.withdrawing ⟨burn.txHash, paid, none, false⟩

end Outcome

/-- The hash and the ids that the withdrawal is recorded under are fit and new. -/
structure Fresh (db : Db) (burn : Burn) (moment : Moment) : Prop where
  storable : Storable db burn.burnedAt burn.txHash
  unclaimed : getAuthorizationByNullifier db burn.request.nullifierHash = none
  unlogged : ∀ row ∈ db.transactions.rows, row.id ≠ moment.random.uuid ∧ row.txHash ≠ burn.txHash

/-- Steps 6 and 7 of the route. -/
structure Shuts (burn : Burn) (moment : Moment) (db db' : Db) : Prop where
  vaults : db'.vaults.rows =
    db.vaults.rows.map fun v => if v.id == burn.vault.id then closed burn.withdrawing v else v
  authorizations : db'.authorizations = db.authorizations
  nullifiers : db'.nullifiers = db.nullifiers
  transactions : db'.transactions.rows = db.transactions.rows ++ [burn.logged moment]

section Closing

variable {db : Db} {burn : Burn} {moment : Moment}

theorem fit_hash (storable : Storable db moment burn.txHash) : isTxHash burn.txHash = true := by
  obtain ⟨hex, long, -⟩ := storable
  rw [isTxHash, like_of_prefix _ rfl hex]
  simpa using long

theorem updateVaults_closed (member : burn.vault ∈ db.vaults.rows)
    (fit : isTxHash burn.txHash = true) :
    ∃ db', updateVaults (fun v => v.id == burn.vault.id) (closed burn.withdrawing) db = .ok db' ∧
      db'.vaults.rows =
        (db.vaults.rows.map fun v =>
          if v.id == burn.vault.id then closed burn.withdrawing v else v) ∧
      db'.authorizations = db.authorizations ∧ db'.nullifiers = db.nullifiers ∧
      db'.transactions = db.transactions := by
  have only : ∀ r ∈ db.vaults.rows, (r.id == burn.vault.id) = true ↔ r = burn.vault := by
    intro r there
    rw [beq_iff_eq]
    exact ⟨fun same => eq_of_id there member same, fun same => by rw [same]⟩
  have accepted : ∃ vaults, db.vaults.update (fun v => v.id == burn.vault.id)
      (closed burn.withdrawing) = .ok vaults := by
    rw [Table.update_accepted_iff db.vaults member (AcknowledgedDeposits.vault_keyed burn.vault)
      only]
    constructor
    · have old := db.vaults.checked burn.vault member
      simp only [vaultSchema, Bool.and_eq_true] at old ⊢
      exact ⟨old.1, fit⟩
    · intro r there apart
      have clear : vaultSchema.clash r burn.vault = false := by
        by_contra clash
        rw [Bool.not_eq_false] at clash
        exact apart (db.vaults.eq_of_clash there member clash)
      exact clear
  obtain ⟨vaults, updated⟩ := accepted
  refine ⟨{ db with vaults }, ?_, Table.update_rows updated, rfl, rfl, rfl⟩
  rw [updateVaults, updated]
  rfl

theorem insertTransaction_logged {row : VaultRow} (member : row ∈ db.vaults.rows)
    (named : row.id = burn.vault.id)
    (fit : isTxHash burn.txHash = true)
    (unlogged : ∀ row ∈ db.transactions.rows,
      row.id ≠ moment.random.uuid ∧ row.txHash ≠ burn.txHash) :
    ∃ db', insertTransaction (burn.logged moment) db = .ok db' ∧ db'.vaults = db.vaults ∧
      db'.authorizations = db.authorizations ∧ db'.nullifiers = db.nullifiers ∧
      db'.transactions.rows = db.transactions.rows ++ [burn.logged moment] := by
  have accepted : ∃ transactions, db.transactions.insert (burn.logged moment) =
      .ok transactions := by
    rw [Table.insert_accepted_iff]
    refine ⟨fit, ?_⟩
    intro row there
    simp [transactionSchema, Burn.logged, unlogged row there]
  obtain ⟨transactions, inserted⟩ := accepted
  have known : references burn.vault.id db = .ok () := by
    have found : (db.vaults.find? fun v => v.id == burn.vault.id).isSome = true := by
      rw [Table.find?, List.find?_isSome]
      exact ⟨row, member, beq_iff_eq.mpr named⟩
    rw [references, if_pos found]
  refine ⟨{ db with transactions }, ?_, rfl, rfl, rfl, Table.insert_rows inserted⟩
  have own : (burn.logged moment).vaultId = burn.vault.id := rfl
  simp only [insertTransaction, inserted, orThrow, own, known]
  rfl

theorem closeVault_shuts (member : burn.vault ∈ db.vaults.rows)
    (fit : isTxHash burn.txHash = true)
    (unlogged : ∀ row ∈ db.transactions.rows,
      row.id ≠ moment.random.uuid ∧ row.txHash ≠ burn.txHash) (answer : WithdrawAnswer) :
    ∃ db', closeVault moment db burn.withdrawing answer = { toTurn := .reply db' answer } ∧
      Shuts burn moment db db' := by
  obtain ⟨db₁, updated, vaults, authorizations, nullifiers, transactions⟩ :=
    updateVaults_closed member fit
  have there : closed burn.withdrawing burn.vault ∈ db₁.vaults.rows := by
    rw [vaults]
    exact List.mem_map.mpr ⟨burn.vault, member, if_pos (by simp)⟩
  have found : vaultById db₁ burn.vault.id = some (closed burn.withdrawing burn.vault) :=
    vaultById_of_mem there rfl
  have amount : encryptedAmountOf db₁ burn.vault.id = burn.vault.encryptedAmount := by
    rw [encryptedAmountOf, found]
    rfl
  rw [← transactions] at unlogged
  obtain ⟨db₂, inserted, vaults', authorizations', nullifiers', transactions'⟩ :=
    insertTransaction_logged there rfl fit unlogged
  refine ⟨db₂, ?_, ?_⟩
  · have first : updateVaults (fun v => v.id == burn.withdrawing.vaultId)
        (fun v => { v with
          status := .withdrawn
          withdrawTxHash := some burn.withdrawing.txHash
          bitcoinWithdrawalAddress := some burn.withdrawing.request.bitcoinAddress }) db =
        .ok db₁ := updated
    have second : insertTransaction
        { id := moment.random.uuid, vaultId := burn.withdrawing.vaultId,
          txHash := burn.withdrawing.txHash, type := .withdraw,
          amountEncrypted := encryptedAmountOf db₁ burn.withdrawing.vaultId,
          timestamp := moment.nowSecs } db₁ = .ok db₂ := by
      rw [show burn.withdrawing.vaultId = burn.vault.id from rfl, amount]
      exact inserted
    rw [closeVault, if_neg (by simp [Burn.withdrawing]), first]
    dsimp only
    rw [second]
  · refine ⟨by rw [vaults', vaults], authorizations'.trans authorizations,
      nullifiers'.trans nullifiers, ?_⟩
    rw [transactions', transactions]

end Closing

section Paying

variable {cfg : Config} {burn : Burn} {db : Db} {moment : Moment}

/-- The row of the authorization before its payout has ended. -/
def Awaiting (cfg : Config) (auth : WithdrawalAuthorization) (db : Db) : Prop :=
  ∃ row, getAuthorizationById db auth.id = some row ∧ granted row = granted auth ∧
    (cfg.useCovenants = true → row.status = .pending)

theorem recorded_of_failed (moment : Moment) (message : String)
    (awaiting : Awaiting cfg burn.auth db) :
    Recorded cfg burn.auth none (settleError cfg moment.nowSecs burn.auth message db).db := by
  obtain ⟨row, found, same, pending⟩ := awaiting
  by_cases covenants : cfg.useCovenants = true
  · rw [settleError_kept covenants]
    refine ⟨row, found, same, ?_, fun txid none_ => by cases none_⟩
    rw [pending covenants, unpaidStatus, if_pos covenants]
    rfl
  · simp only [settleError, if_neg covenants]
    refine ⟨setStatus .failed moment.nowSecs none (some message) row, ?_, same, ?_,
      fun txid none_ => by cases none_⟩
    · rw [getAuthorizationById_writeStatus, found, Option.map_some, if_pos rfl]
    · rw [unpaidStatus, if_neg covenants]
      rfl

/-- A payout that fails ends the handler without a txid. -/
theorem failed_concludes (message : String) (awaiting : Awaiting cfg burn.auth db) :
    Concludes cfg burn none moment db
      (finish moment (settleError cfg moment.nowSecs burn.auth message db).db burn.withdrawing
        burn.auth.id none none) :=
  ⟨_, settleError_touches burn.auth.id message moment.nowSecs rfl,
    recorded_of_failed moment message awaiting, rfl⟩

theorem Concludes.after {paid : Option Text} {d : Db} {turn : WithdrawTurn}
    (touches : Touches burn.auth.id db d) (concludes : Concludes cfg burn paid moment d turn) :
    Concludes cfg burn paid moment db turn := by
  obtain ⟨after, later, recorded, told⟩ := concludes
  exact ⟨after, touches.trans later, recorded, told⟩

theorem taken_awaiting (found : getAuthorizationById db burn.auth.id = some burn.auth) :
    Awaiting cfg burn.auth (taken cfg burn.auth.id moment.nowSecs db) := by
  unfold taken
  split_ifs with covenants
  · exact ⟨burn.auth, found, rfl, fun _ => rfl⟩
  · refine ⟨setStatus .processing moment.nowSecs none none burn.auth, ?_, rfl,
      fun mode => absurd mode covenants⟩
    rw [markStatus, getAuthorizationById_writeStatus, found, Option.map_some, if_pos rfl]

/-- The attempt waits for the UTXOs where the mode is ready for it. -/
theorem attemptPayout_ready (cfg : Config) (moment : Moment)
    (found : getAuthorizationById db burn.auth.id = some burn.auth) :
    if ready cfg burn.auth then
      attemptPayout cfg moment db burn.withdrawing burn.auth.id =
        { toTurn := .wait (taken cfg burn.auth.id moment.nowSecs db)
            (.racing burn.withdrawing (.fetching burn.auth)) }
    else Concludes cfg burn none moment db
      (attemptPayout cfg moment db burn.withdrawing burn.auth.id) := by
  have started := startPayout_ready cfg moment.nowSecs found (Or.inl rfl)
  unfold attemptPayout
  split_ifs at started ⊢ with able
  · rw [started]
  · obtain ⟨message, failed⟩ := started
    have touches := taken_touches cfg burn.auth.id moment.nowSecs db
    rw [failed]
    exact (failed_concludes message (taken_awaiting found)).after touches

variable (cfg moment) (nextRequest : Nat)

theorem race_fetching (awaiting : Awaiting cfg burn.auth db)
    (utxos : Except String (List Utxo × ℚ)) :
    ∃ turn, resumeRacing cfg moment nextRequest db burn.withdrawing (.fetching burn.auth)
        (.utxos utxos) = some turn ∧
      match (utxos.bind fun told => buildFor cfg burn.auth told.1 told.2) with
      | .ok payment => turn =
          { toTurn := .wait db (.racing burn.withdrawing (.sent burn.auth nextRequest))
            sends := some (burn.auth.id, payment) }
      | .error _ => Concludes cfg burn none moment db turn := by
  cases utxos with
  | error message => exact ⟨_, rfl, failed_concludes message awaiting⟩
  | ok told =>
      obtain ⟨list, feeRate⟩ := told
      cases built : buildFor cfg burn.auth list feeRate with
      | error message =>
          refine ⟨finish moment (settleError cfg moment.nowSecs burn.auth message db).db
            burn.withdrawing burn.auth.id none none, ?_, ?_⟩
          · simp [resumeRacing, resumePayout, built, settleError, Payout.auth, Except.toOption]
          · simp only [Except.bind, built]
            exact failed_concludes message awaiting
      | ok payment =>
          refine ⟨{ toTurn := .wait db (.racing burn.withdrawing (.sent burn.auth nextRequest))
                    sends := some (burn.auth.id, payment) }, ?_, ?_⟩
          · simp [resumeRacing, resumePayout, built, Payout.auth]
          · simp [Except.bind, built]

/-- The route records a txid itself, whether the sender has recorded it or not. -/
theorem paid_concludes {digit : Char} {digits : Text} (awaiting : Awaiting cfg burn.auth db) :
    Concludes cfg burn (some (digit :: digits)) moment db
      (finish moment db burn.withdrawing burn.auth.id (some (digit :: digits)) none) := by
  obtain ⟨row, found, same, -⟩ := awaiting
  refine ⟨writeStatus burn.auth.id .completed moment.nowSecs (some (digit :: digits)) none db,
    touches_write .., ⟨setStatus .completed moment.nowSecs (some (digit :: digits)) none row, ?_,
      same, rfl, fun txid told => told⟩, rfl⟩
  rw [getAuthorizationById_writeStatus, found, Option.map_some, if_pos rfl]

theorem race_sent (request : Nat) (awaiting : Awaiting cfg burn.auth db)
    (answer : Except String Text) :
    ∃ turn, resumeRacing cfg moment nextRequest db burn.withdrawing (.sent burn.auth request)
        (.broadcast answer) = some turn ∧
      Concludes cfg burn (answer.toOption.filter fun txid => !txid.isEmpty) moment db turn := by
  cases answer with
  | error message => exact ⟨_, rfl, failed_concludes message awaiting⟩
  | ok txid =>
      by_cases covenants : cfg.useCovenants = true
      · cases txid with
        | nil =>
            refine ⟨finish moment db burn.withdrawing burn.auth.id (some []) none, ?_, ?_⟩
            · simp [resumeRacing, resumePayout, settleBroadcast, covenants, Payout.auth,
                Except.toOption]
            · have kept := recorded_of_failed moment "" awaiting
              rw [settleError_kept covenants] at kept
              exact ⟨db, Touches.refl _ _, kept, rfl⟩
        | cons digit digits =>
            refine ⟨_, ?_, paid_concludes cfg moment awaiting⟩
            simp [resumeRacing, resumePayout, settleBroadcast, covenants, Payout.auth,
              Except.toOption]
      · cases txid with
        | nil =>
            refine ⟨_, ?_, failed_concludes
              "Bitcoin TXID required for completed status" awaiting⟩
            simp [resumeRacing, resumePayout, settleBroadcast, covenants, markCompleted,
              Payout.auth, settleError, Except.toOption]
        | cons digit digits =>
            -- the legacy sender has recorded the txid before the route does
            let recorded := writeStatus burn.auth.id .completed moment.nowSecs
              (some (digit :: digits)) none db
            have still : Awaiting cfg burn.auth recorded := by
              obtain ⟨row, found, same, -⟩ := awaiting
              refine ⟨setStatus .completed moment.nowSecs (some (digit :: digits)) none row, ?_,
                same, fun mode => absurd mode covenants⟩
              rw [getAuthorizationById_writeStatus, found, Option.map_some, if_pos rfl]
            refine ⟨_, ?_, (paid_concludes cfg moment still).after (touches_write ..)⟩
            simp [recorded, resumeRacing, resumePayout, settleBroadcast, covenants, markCompleted,
              Payout.auth, Except.toOption]

end Paying

section Authorizing

variable {burn : Burn} {db : Db}

theorem createAuthorization_transactions {params : AuthorizationParams} {id : Text}
    {nowSecs : Nat} {db' : Db} (created : createAuthorization params id nowSecs db = .ok db') :
    db'.transactions = db.transactions := by
  unfold createAuthorization at created
  split_ifs at created
  simp only [insertAuthorization, bind_eq_ok, orThrow_ok, pure_eq_ok, Except.ok.injEq] at created
  obtain ⟨authorizations, -, _, -, rfl⟩ := created
  rfl

/-- What the creation of the authorization leaves. -/
structure Created (burn : Burn) (db db' : Db) : Prop where
  vaults : db'.vaults = db.vaults
  nullifiers : db'.nullifiers = db.nullifiers
  transactions : db'.transactions = db.transactions
  others : ∀ other, other ≠ burn.auth.id →
    getAuthorizationById db' other = getAuthorizationById db other
  own : getAuthorizationById db' burn.auth.id = some burn.auth

/-- Step 5 creates the authorization and attempts the payout. -/
theorem authorize_created (cfg : Config)
    (signet : tb1.isPrefixOf burn.request.bitcoinAddress = true)
    (member : burn.vault ∈ db.vaults.rows)
    (read : decryptAmount cfg.crypto burn.vault.encryptedAmount burn.vault.salt =
      .ok burn.amountSats)
    (storable : Storable db burn.burnedAt burn.txHash)
    (unclaimed : getAuthorizationByNullifier db burn.request.nullifierHash = none) :
    ∃ db', Created burn db db' ∧ authorize cfg burn.burnedAt db burn.withdrawing =
      attemptPayout cfg burn.burnedAt db' burn.withdrawing burn.auth.id := by
  let params : AuthorizationParams := ⟨burn.withdrawing.vaultId,
    burn.withdrawing.request.nullifierHash, burn.withdrawing.txHash,
    burn.withdrawing.request.bitcoinAddress, actualSats burn.amountSats⟩
  obtain ⟨db', created⟩ : ∃ db', createAuthorization params burn.burnedAt.random.uuid
      burn.burnedAt.nowSecs db = .ok db' :=
    createAuthorization_accepted signet member rfl unclaimed storable
  obtain ⟨-, own, others, vaults, nullifiers⟩ := createAuthorization_ok created
  refine ⟨db', ⟨vaults, nullifiers, createAuthorization_transactions created, others, own⟩, ?_⟩
  have found : vaultById db burn.withdrawing.vaultId = some burn.vault :=
    vaultById_of_mem member rfl
  have missing : getAuthorizationByNullifier db burn.withdrawing.request.nullifierHash = none :=
    unclaimed
  simp only [authorize, found, read, missing]
  rw [show createAuthorization _ _ _ db = _ from created]
  rfl

end Authorizing

/-- A turn of the handler `id`, told for the whole system. -/
structure Took (id : Nat) (request : Request) (turn : SystemTurn) (broadcasts : List Broadcast)
    (s s' : State) : Prop where
  db : s'.db = turn.db
  task : s'.tasks id = turn.next.map fun task => (request, task)
  others : ∀ other, other ≠ id → s'.tasks other = s.tasks other
  answers : s'.answers = s.answers ++ (turn.answer.map fun answer => (request, answer)).toList
  broadcasts : s'.broadcasts = broadcasts ++
    (turn.sends.map fun sent => (⟨sent.1, sent.2, false⟩ : Broadcast)).toList

section Steps

variable {env : Environment} {id : Nat} {request : Request} {task : Task} {turn : SystemTurn}
  {s heard : State} {moment : Moment}

theorem settle_took (tasks : heard.tasks = s.tasks) (answers : heard.answers = s.answers) :
    Took id request turn heard.broadcasts s (settle heard id request turn) := by
  refine ⟨rfl, ?_, ?_, ?_, rfl⟩
  · rw [settle_tasks, if_pos rfl]
  · intro other apart
    rw [settle_tasks, if_neg apart, tasks]
  · rw [settle, answers]

theorem request_took (idle : s.tasks id = none) :
    ∃ s', step env s (.request id request moment) = some s' ∧
      Took id request (begin env moment s.issued s.db request) s.broadcasts s s' :=
  ⟨_, by rw [step, idle], settle_took rfl rfl⟩

theorem reply_took {reply : Reply} (waits : s.tasks id = some (request, task))
    (resumed : resume env moment s.broadcasts.length s.db task reply = some turn) :
    ∃ s', step env s (.reply id reply moment) = some s' ∧
      Took id request turn (landAnswered task reply s.broadcasts) s s' := by
  have took : Took id request turn (hear env s task reply).broadcasts s
      (settle (hear env s task reply) id request turn) := settle_took rfl rfl
  exact ⟨_, by simp [step, waits, resumed], took⟩

variable {burn : Burn} {attempt : Attempt}

/-- The handler `id` is over: its last turn has closed the vault. -/
structure Ended (env : Environment) (burn : Burn) (attempt : Attempt) (id : Nat)
    (request : Request) (db : Db) (s s' : State) : Prop where
  turn : ∃ turn : WithdrawTurn,
    Concludes env.toConfig burn (paidNow env.toConfig attempt burn)
      (closedAt env.toConfig attempt burn) db turn ∧
    s'.db = turn.db ∧
    s'.tasks id = (turn.next.map Task.withdraw).map (fun task => (request, task)) ∧
    s'.answers = s.answers ++ ((turn.answer.map fun result => result.map Answer.withdraw).map
      fun answer => (request, answer)).toList
  others : ∀ other, other ≠ id → s'.tasks other = s.tasks other
  broadcasts : s'.broadcasts = s.broadcasts ++ (handedNow env.toConfig attempt burn).toList

/-- The last turn hands over nothing more. -/
theorem Concludes.silent {cfg : Config} {paid : Option Text} {db : Db} {turn : WithdrawTurn}
    (concludes : Concludes cfg burn paid moment db turn) : turn.sends = none := by
  obtain ⟨d, -, -, rfl⟩ := concludes
  exact (closeVault_closes ..).1.silent

/-- The immediate attempt runs to its end on the answers of the mempool. -/
theorem attempt_ended (attempt : Attempt) (able : ready env.toConfig burn.auth = true)
    (waits : s.tasks id =
      some (request, .withdraw (.racing burn.withdrawing (.fetching burn.auth))))
    (awaiting : Awaiting env.toConfig burn.auth s.db) :
    ∃ s', GuardedRun.run (step env) s (attemptLabels env.toConfig attempt burn id) = some s' ∧
      Ended env burn attempt id request s.db s s' := by
  rw [attemptLabels, if_pos able]
  obtain ⟨turn, resumed, told⟩ := race_fetching env.toConfig attempt.utxosAt
    s.broadcasts.length awaiting attempt.utxos
  have lifted : resume env attempt.utxosAt s.broadcasts.length s.db
      (.withdraw (.racing burn.withdrawing (.fetching burn.auth)))
      (.mempool (.utxos attempt.utxos)) = some (liftPay .withdraw .withdraw turn) := by
    rw [resume, resumed]
    rfl
  obtain ⟨s₁, first, took⟩ := reply_took waits lifted
  cases outcome : attempt.utxos.bind fun told =>
      buildFor env.toConfig burn.auth told.1 told.2 with
  | error message =>
      rw [outcome] at told
      have unbuilt : built env.toConfig attempt burn = none := by
        rw [built, if_pos able, outcome]
        rfl
      have paid : paidNow env.toConfig attempt burn = none := by
        rw [paidNow, unbuilt]
        rfl
      have closes : closedAt env.toConfig attempt burn = attempt.utxosAt := by
        rw [closedAt, unbuilt, if_pos able]
        rfl
      refine ⟨s₁, ?_, ⟨turn, ?_, took.db, took.task, took.answers⟩, took.others, ?_⟩
      · rw [GuardedRun.run, first, unbuilt]
        rfl
      · rw [paid, closes]
        exact told
      · have silent : (liftPay Task.withdraw Answer.withdraw turn).sends = none := told.silent
        rw [took.broadcasts, silent, handedNow, unbuilt]
        rfl
  | ok payment =>
      rw [outcome] at told
      subst told
      have known : built env.toConfig attempt burn = some payment := by
        rw [built, if_pos able, outcome]
        rfl
      have paid : paidNow env.toConfig attempt burn =
          attempt.broadcast.toOption.filter fun txid => !txid.isEmpty := by
        rw [paidNow, known]
        rfl
      have closes : closedAt env.toConfig attempt burn = attempt.broadcastAt := by
        rw [closedAt, known]
        rfl
      have same : s₁.db = s.db := took.db
      rw [← same] at awaiting
      obtain ⟨last, answered, concludes⟩ := race_sent env.toConfig attempt.broadcastAt
        s₁.broadcasts.length s.broadcasts.length awaiting attempt.broadcast
      have lifted : resume env attempt.broadcastAt s₁.broadcasts.length s₁.db
          (.withdraw (.racing burn.withdrawing (.sent burn.auth s.broadcasts.length)))
          (.mempool (.broadcast attempt.broadcast)) = some (liftPay .withdraw .withdraw last) := by
        rw [resume, answered]
        rfl
      obtain ⟨s₂, second, took'⟩ := reply_took took.task lifted
      refine ⟨s₂, ?_, ⟨last, ?_, took'.db, took'.task, ?_⟩, ?_, ?_⟩
      · rw [GuardedRun.run, first, known]
        simp [GuardedRun.run, second]
      · rw [paid, closes, ← same]
        exact concludes
      · have quiet : s₁.answers = s.answers := by
          rw [took.answers]
          exact List.append_nil _
        rw [took'.answers, quiet]
        rfl
      · exact fun other apart => (took'.others other apart).trans (took.others other apart)
      · have sent : s₁.broadcasts = s.broadcasts ++ [⟨burn.auth.id, payment, false⟩] :=
          took.broadcasts
        have silent : (liftPay Task.withdraw Answer.withdraw last).sends = none := concludes.silent
        rw [took'.broadcasts, silent, sent, handedNow, known]
        cases attempt.broadcast with
        | error message => simp [landAnswered, Except.toOption]
        | ok txid =>
            have landed := land_last s.broadcasts ⟨burn.auth.id, payment, false⟩
            simp [landAnswered, payoutOf, landed, Except.toOption]

theorem Ended.after {db₀ db : Db} {s₀ s' : State} (touches : Touches burn.auth.id db₀ db)
    (others : ∀ other, other ≠ id → s.tasks other = s₀.tasks other)
    (answers : s.answers = s₀.answers) (broadcasts : s.broadcasts = s₀.broadcasts)
    (ended : Ended env burn attempt id request db s s') :
    Ended env burn attempt id request db₀ s₀ s' := by
  obtain ⟨turn, concludes, stored, task, told⟩ := ended.turn
  refine ⟨⟨turn, concludes.after touches, stored, task, ?_⟩, ?_, ?_⟩
  · rw [told, answers]
  · exact fun other apart => (ended.others other apart).trans (others other apart)
  · rw [ended.broadcasts, broadcasts]

def withdrawLabels (cfg : Config) (attempt : Attempt) (burn : Burn) (body : WithdrawBody)
    (askedAt : Moment) (id : Nat) : List Label :=
  .request id (.withdraw body) askedAt ::
    .reply id (.rpc (.executed (.ok burn.txHash))) burn.burnedAt ::
    attemptLabels cfg attempt burn id

variable {body : WithdrawBody} {call : WithdrawCall}

theorem withdrawal_ended (attempt : Attempt) (askedAt : Moment) (idle : s.tasks id = none)
    (gate : withdrawGate env.senderAddress env.crypto s.db body =
      .ok (.submit burn.request burn.vault call))
    (read : decryptAmount env.crypto burn.vault.encryptedAmount burn.vault.salt =
      .ok burn.amountSats)
    (storable : Storable s.db burn.burnedAt burn.txHash)
    (unclaimed : getAuthorizationByNullifier s.db burn.request.nullifierHash = none) :
    ∃ db s', GuardedRun.run (step env) s
        (withdrawLabels env.toConfig attempt burn body askedAt id) = some s' ∧
      Created burn s.db db ∧ Ended env burn attempt id (.withdraw body) db s s' := by
  obtain ⟨-, admitted⟩ := (WithdrawGate.withdrawGate_submit _ _ _ _ _ _).mp ⟨call, gate⟩
  have member : burn.vault ∈ s.db.vaults.rows := (Table.find?_some admitted.found).1
  obtain ⟨db, created, went⟩ :=
    authorize_created env.toConfig admitted.signet member read storable unclaimed
  have begun : begin env askedAt s.issued s.db (.withdraw body) =
      liftPay .withdraw .withdraw
        { toTurn := .wait s.db (.executing burn.request burn.vault call) } := by
    simp [begin, withdraw, gate]
  obtain ⟨s₁, first, took⟩ : ∃ s₁, step env s (.request id (.withdraw body) askedAt) = some s₁ ∧
      Took id (.withdraw body) (begin env askedAt s.issued s.db (.withdraw body)) s.broadcasts
        s s₁ := request_took idle
  rw [begun] at took
  have same : s₁.db = s.db := took.db
  have resumed : resume env burn.burnedAt s₁.broadcasts.length s₁.db
      (.withdraw (.executing burn.request burn.vault call)) (.rpc (.executed (.ok burn.txHash))) =
      some (liftPay .withdraw .withdraw
        (attemptPayout env.toConfig burn.burnedAt db burn.withdrawing burn.auth.id)) := by
    rw [← went, same]
    rfl
  obtain ⟨s₂, second, took'⟩ := reply_took took.task resumed
  have quiet : s₁.broadcasts = s.broadcasts ∧ s₁.answers = s.answers :=
    ⟨took.broadcasts.trans (List.append_nil _), took.answers.trans (List.append_nil _)⟩
  have others : ∀ other, other ≠ id → s₂.tasks other = s.tasks other := fun other apart =>
    (took'.others other apart).trans (took.others other apart)
  have started := attemptPayout_ready env.toConfig burn.burnedAt created.own
  have runs : ∀ labels, GuardedRun.run (step env) s
      (.request id (.withdraw body) askedAt ::
        .reply id (.rpc (.executed (.ok burn.txHash))) burn.burnedAt :: labels) =
      GuardedRun.run (step env) s₂ labels := by
    intro labels
    simp [GuardedRun.run, first, second]
  by_cases able : ready env.toConfig burn.auth = true
  · rw [if_pos able] at started
    rw [started] at took'
    have held : s₂.db = taken env.toConfig burn.auth.id burn.burnedAt.nowSecs db := took'.db
    have awaiting : Awaiting env.toConfig burn.auth s₂.db := by
      rw [held]
      exact taken_awaiting created.own
    obtain ⟨s', ran, ended⟩ := attempt_ended attempt able took'.task awaiting
    rw [held] at ended
    refine ⟨db, s', (runs _).trans ran, created, ended.after (taken_touches ..) others ?_ ?_⟩
    · exact took'.answers.trans ((List.append_nil _).trans quiet.2)
    · exact took'.broadcasts.trans ((List.append_nil _).trans quiet.1)
  · rw [if_neg able] at started
    have unbuilt : built env.toConfig attempt burn = none := by rw [built, if_neg able]
    have paid : paidNow env.toConfig attempt burn = none := by
      rw [paidNow, unbuilt]
      rfl
    have closes : closedAt env.toConfig attempt burn = burn.burnedAt := by
      rw [closedAt, unbuilt, if_neg able]
      rfl
    refine ⟨db, s₂, ?_, created, ⟨_, ?_, took'.db, took'.task, ?_⟩, others, ?_⟩
    · rw [withdrawLabels, runs, attemptLabels, if_neg able]
      rfl
    · rw [paid, closes]
      exact started
    · rw [took'.answers, quiet.2]
      rfl
    · have silent : (liftPay Task.withdraw Answer.withdraw (attemptPayout env.toConfig
          burn.burnedAt db burn.withdrawing burn.auth.id)).sends = none := started.silent
      rw [took'.broadcasts, silent, handedNow, unbuilt]
      exact (List.append_nil _).trans (quiet.1.trans (List.append_nil _).symm)

end Steps

/-- What the handled withdrawal has written. -/
structure Withdrawn (cfg : Config) (burn : Burn) (paid : Option Text) (moment : Moment)
    (db db' : Db) : Prop where
  vaults : db'.vaults.rows = db.vaults.rows.map fun v =>
    if v.id == burn.vault.id then closed burn.withdrawing v else v
  transactions : db'.transactions.rows = db.transactions.rows ++ [burn.logged moment]
  nullifiers : db'.nullifiers = db.nullifiers
  recorded : Recorded cfg burn.auth paid db'
  others : ∀ other, other ≠ burn.auth.id →
    getAuthorizationById db' other = getAuthorizationById db other

theorem getAuthorizationById_congr {db db' : Db}
    (same : db'.authorizations = db.authorizations) (id : Text) :
    getAuthorizationById db' id = getAuthorizationById db id := by
  rw [getAuthorizationById, same, getAuthorizationById]

theorem concludes_withdrawn {cfg : Config} {burn : Burn} {paid : Option Text} {moment : Moment}
    {db db₁ : Db} {turn : WithdrawTurn} (created : Created burn db db₁)
    (member : burn.vault ∈ db.vaults.rows) (fresh : Fresh db burn moment)
    (concludes : Concludes cfg burn paid moment db₁ turn) :
    ∃ db', turn = { toTurn := .reply db' ⟨burn.txHash, paid, none, false⟩ } ∧
      Withdrawn cfg burn paid moment db db' := by
  obtain ⟨d, touches, ⟨row, found, same, status, txid⟩, rfl⟩ := concludes
  have vaults : d.vaults = db.vaults := touches.vaults.trans created.vaults
  have transactions : d.transactions = db.transactions :=
    touches.transactions.trans created.transactions
  obtain ⟨db', closes, shuts⟩ := closeVault_shuts (vaults ▸ member) (fit_hash fresh.storable)
    (transactions ▸ fresh.unlogged) ⟨burn.txHash, paid, none, false⟩
  refine ⟨db', closes, ?_, ?_, ?_, ⟨row, ?_, same, status, txid⟩, ?_⟩
  · rw [shuts.vaults, vaults]
  · rw [shuts.transactions, transactions]
  · rw [shuts.nullifiers, touches.nullifiers, created.nullifiers]
  · rw [getAuthorizationById_congr shuts.authorizations, found]
  · intro other apart
    rw [getAuthorizationById_congr shuts.authorizations, touches.others other apart,
      created.others other apart]

/-- The run of an admitted withdrawal, with all that it leaves. -/
theorem withdrawal_withdrawn {env : Environment} {id : Nat} {s : State} {burn : Burn}
    {body : WithdrawBody} {call : WithdrawCall} (attempt : Attempt) (askedAt : Moment)
    (idle : s.tasks id = none)
    (gate : withdrawGate env.senderAddress env.crypto s.db body =
      .ok (.submit burn.request burn.vault call))
    (read : decryptAmount env.crypto burn.vault.encryptedAmount burn.vault.salt =
      .ok burn.amountSats)
    (fresh : Fresh s.db burn (closedAt env.toConfig attempt burn)) :
    ∃ s', GuardedRun.run (step env) s
        (withdrawLabels env.toConfig attempt burn body askedAt id) = some s' ∧
      s'.tasks id = none ∧ (∀ other, other ≠ id → s'.tasks other = s.tasks other) ∧
      s'.answers = s.answers ++ [(.withdraw body,
        .ok (.withdraw ⟨burn.txHash, paidNow env.toConfig attempt burn, none, false⟩))] ∧
      s'.broadcasts = s.broadcasts ++ (handedNow env.toConfig attempt burn).toList ∧
      Withdrawn env.toConfig burn (paidNow env.toConfig attempt burn)
        (closedAt env.toConfig attempt burn) s.db s'.db := by
  obtain ⟨-, admitted⟩ := (WithdrawGate.withdrawGate_submit _ _ _ _ _ _).mp ⟨call, gate⟩
  have member : burn.vault ∈ s.db.vaults.rows := (Table.find?_some admitted.found).1
  obtain ⟨db, s', ran, created, ended⟩ :=
    withdrawal_ended attempt askedAt idle gate read fresh.storable fresh.unclaimed
  obtain ⟨turn, concludes, stored, task, told⟩ := ended.turn
  obtain ⟨db', rfl, withdrawn⟩ := concludes_withdrawn created member fresh concludes
  have held : s'.db = db' := stored
  rw [← held] at withdrawn
  exact ⟨s', ran, task, ended.others, told, ended.broadcasts, withdrawn⟩

/-- One poll: when it starts, and what it is told about each authorization. -/
structure Poll where
  moment : Moment
  script : Text → Script

section Polling

variable (env : Environment) (id : Nat)

def pollOnce (s : State) (poll : Poll) : Option State :=
  GuardedRun.run (step env) s (.request id .processAuthorizations poll.moment ::
    (getPendingAuthorizations s.db).flatMap (repliesTo env.toConfig poll.script id))

/-- Polls one after the other, each through to its end. -/
def pollAll (s : State) (polls : List Poll) : Option State := polls.foldlM (pollOnce env id) s

/-- The txid of the first poll that can pay. -/
def paidLater (cfg : Config) (auth : WithdrawalAuthorization) (polls : List Poll) : Option Text :=
  polls.findSome? fun poll => paidWith cfg poll.script auth

variable {env} {id} {auth row : WithdrawalAuthorization} {paid : Option Text} {s : State}

theorem paidWith_congr {cfg : Config} (script : Text → Script) (own : row.id = auth.id)
    (same : granted row = granted auth) : paidWith cfg script row = paidWith cfg script auth := by
  have hash : row.starknetTxHash = auth.starknetTxHash :=
    congrArg AuthorizationParams.starknetTxHash same
  have builds : buildFor cfg row = buildFor cfg auth := by
    funext utxos feeRate
    exact buildFor_congr same utxos feeRate
  have clear : clears cfg script row = clears cfg script auth := by
    rw [clears, clears, wellFormed, wellFormed, ready_congr same, own, hash]
  rw [paidWith, paidWith, paymentFor, paymentFor, clear, own, builds]

theorem pollOnce_drained (poll : Poll) (idle : s.tasks id = none) :
    ∃ s', pollOnce env id s poll = some s' ∧ s'.tasks id = none ∧
      Drained env poll.script (getPendingAuthorizations s.db) s.db s'.db := by
  obtain ⟨s₁, first, turned⟩ := poll_begun env poll.moment idle
  obtain ⟨s', ran, ended, -, -, drained⟩ :=
    poll_drains poll.script (pending_distinct s.db)
      (fun auth member => ⟨auth, pending_stored member, rfl⟩) turned.stands
  refine ⟨s', ?_, ended, drained⟩
  rw [pollOnce, GuardedRun.run, first]
  exact ran

theorem mem_pending_iff {db : Db} (found : getAuthorizationById db row.id = some row) :
    row ∈ getPendingAuthorizations db ↔ row.status = .pending := by
  have member := (Table.find?_some found).1
  rw [getPendingAuthorizations, List.mem_insertionSort, Table.filter, List.mem_filter]
  simp [member]

/-- A poll pays what it can of what is pending, and leaves what is completed or failed. -/
theorem drained_recorded {script : Text → Script} {db db' : Db}
    (drained : Drained env script (getPendingAuthorizations db) db db')
    (recorded : Recorded env.toConfig auth paid db) :
    Recorded env.toConfig auth
      (paid.or (if env.useCovenants then paidWith env.toConfig script auth else none)) db' := by
  obtain ⟨row, found, same, status, txid⟩ := recorded
  have own := getAuthorizationById_id found
  rw [← own] at found
  by_cases pending : row.status = .pending
  · obtain ⟨covenants, unpaid⟩ : env.useCovenants = true ∧ paid = none := by
      rw [pending, unpaidStatus] at status
      cases paid with
      | some paid => cases status
      | none =>
          refine ⟨?_, rfl⟩
          by_contra legacy
          rw [if_neg legacy] at status
          cases status
    obtain ⟨row', there, same', status', txid'⟩ :=
      drained.outcomes row ((mem_pending_iff found).mpr pending)
    rw [paidWith_congr script own same] at status' txid'
    rw [unpaid, Option.none_or, if_pos covenants]
    refine ⟨row', own ▸ there, same'.trans same, ?_, txid'⟩
    rw [status', unpaidStatus, if_pos covenants]
  · have kept : getAuthorizationById db' auth.id = some row := by
      rw [← own, ← found]
      refine drained.others row.id fun other member here => pending ?_
      have stored := pending_stored member
      rw [here, found, Option.some.injEq] at stored
      rw [← stored] at member
      exact (mem_pending_iff found).mp member
    have settled : (paid.or (if env.useCovenants then paidWith env.toConfig script auth
        else none)) = paid := by
      cases paid with
      | some paid => rfl
      | none =>
          have legacy : env.useCovenants = false := by
            by_contra covenants
            rw [Bool.not_eq_false] at covenants
            rw [unpaidStatus, if_pos covenants] at status
            exact pending status
          rw [legacy]
          rfl
    rw [settled]
    exact ⟨row, kept, same, status, txid⟩

/-- Polls one after the other: the first that can pay has paid, and later ones do not undo it. -/
theorem pollAll_recorded (polls : List Poll) (idle : s.tasks id = none)
    (recorded : Recorded env.toConfig auth paid s.db) :
    ∃ s', pollAll env id s polls = some s' ∧ s'.tasks id = none ∧
      s'.db.vaults = s.db.vaults ∧ Recorded env.toConfig auth
        (paid.or (if env.useCovenants then paidLater env.toConfig auth polls else none)) s'.db := by
  induction polls generalizing s paid with
  | nil =>
      refine ⟨s, rfl, idle, rfl, ?_⟩
      rw [paidLater, List.findSome?_nil, ite_self, Option.or_none]
      exact recorded
  | cons poll polls ih =>
      obtain ⟨s₁, first, idle₁, drained⟩ := pollOnce_drained poll idle
      obtain ⟨s', rest, ended, vaults, recorded'⟩ := ih idle₁ (drained_recorded drained recorded)
      refine ⟨s', ?_, ended, vaults.trans drained.vaults, ?_⟩
      · rw [pollAll, List.foldlM_cons, first]
        exact rest
      · rw [Option.or_assoc] at recorded'
        have joined : ((if env.useCovenants then paidWith env.toConfig poll.script auth
            else none).or (if env.useCovenants then paidLater env.toConfig auth polls else none)) =
            if env.useCovenants then paidLater env.toConfig auth (poll :: polls) else none := by
          rw [paidLater, paidLater, List.findSome?_cons]
          cases env.useCovenants with
          | false => rfl
          | true => cases paidWith env.toConfig poll.script auth <;> rfl
        rw [joined] at recorded'
        exact recorded'

end Polling

/-- An admitted withdrawal whose Starknet call is answered with a fit hash runs to its end on
whatever the mempool answers in time: the vault is closed, the transaction logged, one payment
handed over if one could be built, and the authorization there. It is paid by the attempt or, with
covenants, by the first of the later polls that can pay it; without covenants no poll does. -/
theorem withdrawal_paid {env : Environment} {id : Nat} {s : State} {burn : Burn}
    {body : WithdrawBody} {call : WithdrawCall} (attempt : Attempt) (askedAt : Moment)
    (idle : s.tasks id = none)
    (gate : withdrawGate env.senderAddress env.crypto s.db body =
      .ok (.submit burn.request burn.vault call))
    (read : decryptAmount env.crypto burn.vault.encryptedAmount burn.vault.salt =
      .ok burn.amountSats)
    (fresh : Fresh s.db burn (closedAt env.toConfig attempt burn)) :
    ∃ s', GuardedRun.run (step env) s
        (withdrawLabels env.toConfig attempt burn body askedAt id) = some s' ∧
      s'.tasks id = none ∧ (∀ other, other ≠ id → s'.tasks other = s.tasks other) ∧
      s'.answers = s.answers ++ [(.withdraw body,
        .ok (.withdraw ⟨burn.txHash, paidNow env.toConfig attempt burn, none, false⟩))] ∧
      s'.broadcasts = s.broadcasts ++ (handedNow env.toConfig attempt burn).toList ∧
      Withdrawn env.toConfig burn (paidNow env.toConfig attempt burn)
        (closedAt env.toConfig attempt burn) s.db s'.db ∧
      ∀ polls, ∃ later, pollAll env id s' polls = some later ∧
        later.db.vaults = s'.db.vaults ∧ Recorded env.toConfig burn.auth
          ((paidNow env.toConfig attempt burn).or
            (if env.useCovenants then paidLater env.toConfig burn.auth polls else none))
          later.db := by
  obtain ⟨s', ran, idle', others, told, broadcasts, withdrawn⟩ :=
    withdrawal_withdrawn attempt askedAt idle gate read fresh
  refine ⟨s', ran, idle', others, told, broadcasts, withdrawn, fun polls => ?_⟩
  obtain ⟨later, polled, -, vaults, recorded⟩ := pollAll_recorded polls idle' withdrawn.recorded
  exact ⟨later, polled, vaults, recorded⟩

section Sample

/-- The server on the database of the sample deposit. -/
def acknowledged : State :=
  { boot sampleGenesis with
    db := ((GuardedRun.run (step covenantMode) (boot sampleGenesis) depositLabels).map
      State.db).getD Database.empty }

def sampleBurn : Burn where
  request := ⟨['s'], ['0', 'x', '7'], ['t', 'b', '1', 'q']⟩
  vault := (vaultByNullifier acknowledged.db ['0', 'x', '7']).getD
    (Deposits.spvRow covenantMode.toConfig (sampleMoment ['d']) sampleDeposit nilUuid
      ['0', 'x', '7'] (sampleHash '3') 1000000000000000)
  txHash := sampleHash '4'
  amountSats := 1000000000000000
  burnedAt := sampleMoment ['w']

/-- The mempool API cannot be reached. -/
def offline : Attempt where
  utxos := .error "offline"
  utxosAt := sampleMoment ['e']
  broadcast := .error "offline"
  broadcastAt := sampleMoment ['e']

def samplePoll : Poll := ⟨sampleMoment ['p'], fun _ => sampleScript⟩

theorem sample_read : decryptAmount covenantMode.crypto sampleBurn.vault.encryptedAmount
    sampleBurn.vault.salt = .ok 1000000000000000 := by decide +kernel

theorem sample_gate : ∃ call, withdrawGate covenantMode.senderAddress covenantMode.crypto
    acknowledged.db sampleWithdraw = .ok (.submit sampleBurn.request sampleBurn.vault call) := by
  have found : vaultByNullifier acknowledged.db ['0', 'x', '7'] = some sampleBurn.vault := by
    have present : (vaultByNullifier acknowledged.db ['0', 'x', '7']).isSome = true := by
      decide +kernel
    obtain ⟨vault, there⟩ := Option.isSome_iff_exists.mp present
    rw [sampleBurn, there]
    rfl
  exact (WithdrawGate.withdrawGate_submit _ _ _ _ _ _).mpr ⟨rfl, by decide, by decide, found,
    by decide +kernel, by decide +kernel, ⟨_, sample_read⟩, by decide +kernel⟩

theorem sample_fresh :
    Fresh acknowledged.db sampleBurn (closedAt covenantMode.toConfig offline sampleBurn) :=
  ⟨⟨by decide, by decide, by decide +kernel⟩, by decide +kernel, by decide +kernel⟩

theorem sample_paid : (paidNow covenantMode.toConfig offline sampleBurn).or
    (if covenantMode.useCovenants then
      paidLater covenantMode.toConfig sampleBurn.auth [samplePoll] else none) = some ['x'] := by
  decide +kernel

/-- The attempt fails, the next poll pays. -/
theorem withdrawal_paid_later :
    ∃ s' later, GuardedRun.run (step covenantMode) acknowledged
        (withdrawLabels covenantMode.toConfig offline sampleBurn sampleWithdraw
          (sampleMoment ['q']) 1) = some s' ∧
      pollAll covenantMode 1 s' [samplePoll] = some later ∧
      Recorded covenantMode.toConfig sampleBurn.auth (some ['x']) later.db := by
  obtain ⟨call, gate⟩ := sample_gate
  obtain ⟨s', ran, -, -, -, -, -, polls⟩ := withdrawal_paid offline (sampleMoment ['q'])
    (rfl : acknowledged.tasks 1 = none) gate sample_read sample_fresh
  obtain ⟨later, polled, -, recorded⟩ := polls [samplePoll]
  rw [sample_paid] at recorded
  exact ⟨s', later, ran, polled, recorded⟩

end Sample

end PrivateBtc.Backend.PaidWithdrawals
