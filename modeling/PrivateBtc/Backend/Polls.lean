/- PrivateBtc/Backend/Polls
   digest: What a poll of the processor does: it completes exactly what the network lets it pay. -/

import PrivateBtc.Backend.Server

set_option autoImplicit false
set_option relaxedAutoImplicit false

namespace PrivateBtc.Backend.Polls

open Library Library.JsText Library.Outcome
open Authorizations Database Http Payments Processor Server Starknet
open Withdrawals (PayTurn)

/-- What the network answers about one authorization, and when. A timer on a request that runs out
is an error. -/
structure Script where
  receipt : Except String TransactionReceipt
  receiptAt : Moment
  utxos : Except String (List Utxo × ℚ)
  utxosAt : Moment
  broadcast : Except String Text
  broadcastAt : Moment

section Outcome

variable (cfg : Config) (script : Text → Script)

/-- The sender's configuration that the legacy mode needs. -/
def ready (auth : WithdrawalAuthorization) : Bool :=
  cfg.useCovenants || (senderOf cfg auth.bitcoinAddress).toOption.isSome

/-- The checks before the mempool is asked. -/
def clears (auth : WithdrawalAuthorization) : Bool :=
  wellFormed auth && isFinalized (script auth.id).receipt && ready cfg auth

/-- The payment that is handed over for an authorization, if it comes that far. -/
def paymentFor (auth : WithdrawalAuthorization) : Option Payment :=
  if clears cfg script auth then
    match (script auth.id).utxos with
    | .ok (utxos, feeRate) => (buildFor cfg auth utxos feeRate).toOption
    | .error _ => none
  else none

/-- The txid that completes an authorization; a blank one does not. -/
def paidWith (auth : WithdrawalAuthorization) : Option Text :=
  if (paymentFor cfg script auth).isSome then
    (script auth.id).broadcast.toOption.filter fun txid => !txid.isEmpty
  else none

/-- What is added to the broadcasts; one that is answered with a txid has landed. -/
def handed (auth : WithdrawalAuthorization) : Option Broadcast :=
  (paymentFor cfg script auth).map fun payment =>
    ⟨auth.id, payment, (script auth.id).broadcast.toOption.isSome⟩

/-- What comes to the poll about one authorization. -/
def repliesTo (id : Nat) (auth : WithdrawalAuthorization) : List Label :=
  if wellFormed auth then
    .reply id (.rpc (.receipt (script auth.id).receipt)) (script auth.id).receiptAt ::
    if clears cfg script auth then
      .reply id (.mempool (.utxos (script auth.id).utxos)) (script auth.id).utxosAt ::
      if (paymentFor cfg script auth).isSome then
        [.reply id (.mempool (.broadcast (script auth.id).broadcast)) (script auth.id).broadcastAt]
      else []
    else []
  else []

end Outcome

/-- Writes to one authorization. -/
structure Touches (authId : Text) (db db' : Db) : Prop where
  vaults : db'.vaults = db.vaults
  nullifiers : db'.nullifiers = db.nullifiers
  transactions : db'.transactions = db.transactions
  others : ∀ other, other ≠ authId → getAuthorizationById db' other = getAuthorizationById db other
  grant : grantOf db' authId = grantOf db authId

theorem Touches.refl (authId : Text) (db : Db) : Touches authId db db :=
  ⟨rfl, rfl, rfl, fun _ _ => rfl, rfl⟩

theorem Touches.trans {authId : Text} {db₁ db₂ db₃ : Db} (first : Touches authId db₁ db₂)
    (second : Touches authId db₂ db₃) : Touches authId db₁ db₃ :=
  ⟨second.vaults.trans first.vaults, second.nullifiers.trans first.nullifiers,
    second.transactions.trans first.transactions,
    fun other apart => (second.others other apart).trans (first.others other apart),
    second.grant.trans first.grant⟩

theorem touches_write (authId : Text) (status : AuthStatus) (nowSecs : Nat) (txid : Option Text)
    (message : Option String) (db : Db) :
    Touches authId db (writeStatus authId status nowSecs txid message db) := by
  refine ⟨rfl, rfl, rfl, ?_, grantOf_writeStatus ..⟩
  intro other apart
  rw [getAuthorizationById_writeStatus]
  cases getAuthorizationById db other with
  | none => rfl
  | some row => rw [Option.map_some, if_neg apart]

/-- The outcome of a poll for one authorization. -/
structure Settles (paid : Option Text) (authId : Text) (db db' : Db) : Prop
    extends Touches authId db db' where
  outcome : ∀ row, getAuthorizationById db' authId = some row →
    row.status = (if paid.isSome then .completed else .pending) ∧
      ∀ txid, paid = some txid → row.bitcoinTxid = some txid

section Settles

variable {authId : Text} {db db' : Db} {nowSecs : Nat}

theorem settles_pending (touches : Touches authId db db') :
    Settles none authId db (markStatus authId .pending nowSecs db') := by
  refine ⟨touches.trans (touches_write ..), ?_⟩
  intro row found
  rw [markStatus, getAuthorizationById_writeStatus, Option.map_eq_some_iff] at found
  obtain ⟨before, -, rfl⟩ := found
  rw [if_pos rfl]
  exact ⟨rfl, fun txid none_ => by cases none_⟩

theorem settles_completed {txid : Text} (touches : Touches authId db db') :
    Settles (some txid) authId db (writeStatus authId .completed nowSecs (some txid) none db') := by
  refine ⟨touches.trans (touches_write ..), ?_⟩
  intro row found
  rw [getAuthorizationById_writeStatus, Option.map_eq_some_iff] at found
  obtain ⟨before, -, rfl⟩ := found
  rw [if_pos rfl]
  exact ⟨rfl, fun other same => same⟩

end Settles

section Payout

variable {cfg : Config} {moment : Moment} {db : Db} {row auth : WithdrawalAuthorization}
  {rest : List WithdrawalAuthorization}

theorem ready_congr (same : granted row = granted auth) : ready cfg row = ready cfg auth := by
  have address : row.bitcoinAddress = auth.bitcoinAddress :=
    congrArg AuthorizationParams.bitcoinAddress same
  rw [ready, ready, address]

theorem buildFor_congr (same : granted row = granted auth) (utxos : List Utxo) (feeRate : ℚ) :
    buildFor cfg row utxos feeRate = buildFor cfg auth utxos feeRate := by
  have address : row.bitcoinAddress = auth.bitcoinAddress :=
    congrArg AuthorizationParams.bitcoinAddress same
  have amount : row.amountSats = auth.amountSats := congrArg AuthorizationParams.amountSats same
  simp only [buildFor, createCovenantWithdrawal, address, amount]

theorem getAuthorizationByNullifier_of_mem (member : row ∈ db.authorizations.rows) :
    getAuthorizationByNullifier db row.nullifierHash = some row := by
  refine Table.find?_of_mem member (by simp) ?_
  intro a b a_same b_same
  rw [beq_iff_eq] at a_same b_same
  simp [authorizationSchema, a_same, b_same]

/-- The legacy sender marks the authorization before it asks for anything. -/
def taken (cfg : Config) (authId : Text) (nowSecs : Nat) (db : Db) : Db :=
  if cfg.useCovenants then db else markStatus authId .processing nowSecs db

theorem taken_touches (cfg : Config) (authId : Text) (nowSecs : Nat) (db : Db) :
    Touches authId db (taken cfg authId nowSecs db) := by
  unfold taken
  split_ifs
  · exact Touches.refl _ _
  · exact touches_write ..

/-- A payout of an authorization that is still open starts where the mode is ready for it. -/
theorem startPayout_ready (cfg : Config) (nowSecs : Nat)
    (found : getAuthorizationById db auth.id = some row)
    (unsettled : row.status = .pending ∨ row.status = .processing) :
    if ready cfg row then
      startPayout cfg auth.id nowSecs db =
        ⟨taken cfg auth.id nowSecs db, none, .waiting (.fetching row)⟩
    else ∃ message, startPayout cfg auth.id nowSecs db =
      settleError cfg nowSecs row message (taken cfg auth.id nowSecs db) := by
  have own := getAuthorizationById_id found
  by_cases covenants : cfg.useCovenants = true
  · have able : ready cfg row = true := by rw [ready, covenants, Bool.true_or]
    rw [if_pos able, startPayout, if_pos covenants, executeCovenantWithdrawal, found, taken,
      if_pos covenants]
  · have verified : verifyAuthorization db row.nullifierHash = .ok row := by
      have member := (Table.find?_some found).1
      rw [verifyAuthorization, getAuthorizationByNullifier_of_mem member]
      rcases unsettled with status | status <;> simp [status]
    rw [startPayout, if_neg covenants, sendBitcoinWithAuthorization, found, taken,
      if_neg covenants, ready]
    dsimp only
    rw [verified, own]
    cases sender : senderOf cfg row.bitcoinAddress with
    | error message =>
        rw [if_neg (by simp [covenants, Except.toOption])]
        exact ⟨message, rfl⟩
    | ok address =>
        rw [if_pos (by simp [Except.toOption])]

theorem settleError_touches (authId : Text) (message : String) (nowSecs : Nat)
    (own : row.id = authId) : Touches authId db (settleError cfg nowSecs row message db).db := by
  unfold settleError
  dsimp only
  split_ifs
  · exact Touches.refl _ _
  · rw [own]
    exact touches_write ..

/-- The turn ends the work on an authorization and takes up the rest of the list. -/
def Resumes (paid : Option Text) (authId : Text) (db : Db) (rest : List WithdrawalAuthorization)
    (turn : ProcessorTurn) : Prop :=
  ∃ moment after, turn = takeNext moment after rest ∧ Settles paid authId db after

theorem giveBack_resumes {d : Db} {authId : Text} (touches : Touches authId db d) :
    Resumes none authId db rest (giveBack moment d authId rest) :=
  ⟨moment, _, rfl, settles_pending touches⟩

theorem Resumes.after {paid : Option Text} {authId : Text} {d : Db} {turn : ProcessorTurn}
    (touches : Touches authId db d) (resumes : Resumes paid authId d rest turn) :
    Resumes paid authId db rest turn := by
  obtain ⟨moment, after, rfl, settles⟩ := resumes
  exact ⟨moment, after, rfl, touches.trans settles.toTouches, settles.outcome⟩

theorem sendPayout_ready (cfg : Config) (moment : Moment) (rest : List WithdrawalAuthorization)
    (found : getAuthorizationById db auth.id = some row)
    (processing : row.status = .processing) :
    if ready cfg row then
      ∃ d, Touches auth.id db d ∧ sendPayout cfg moment db auth rest =
        { toTurn := .wait d (.paying (.fetching row) rest) }
    else Resumes none auth.id db rest (sendPayout cfg moment db auth rest) := by
  have started := startPayout_ready cfg moment.nowSecs found (Or.inr processing)
  have marked := taken_touches cfg auth.id moment.nowSecs db
  unfold sendPayout
  dsimp only
  split_ifs at started ⊢ with able
  · rw [started]
    exact ⟨_, marked, rfl⟩
  · obtain ⟨message, failed⟩ := started
    rw [failed]
    exact giveBack_resumes
      (marked.trans (settleError_touches auth.id message _ (getAuthorizationById_id found)))

variable (cfg moment db row rest)

/-- The mempool's UTXOs: a payment is handed over, or the authorization is given back. -/
theorem resumePaying_fetching (nextRequest : Nat) (utxos : Except String (List Utxo × ℚ)) :
    ∃ turn, resumePaying cfg moment nextRequest db (.fetching row) rest (.utxos utxos) =
        some turn ∧
      match (utxos.bind fun told => buildFor cfg row told.1 told.2) with
      | .ok payment => turn =
          { toTurn := .wait db (.paying (.sent row nextRequest) rest)
            sends := some (row.id, payment) }
      | .error _ => Resumes none row.id db rest turn := by
  cases utxos with
  | error message =>
      refine ⟨_, rfl, ?_⟩
      exact giveBack_resumes (settleError_touches row.id message moment.nowSecs rfl)
  | ok told =>
      obtain ⟨list, feeRate⟩ := told
      cases built : buildFor cfg row list feeRate with
      | error message =>
          refine ⟨giveBack moment (settleError cfg moment.nowSecs row message db).db row.id rest,
            ?_, ?_⟩
          · simp [resumePaying, resumePayout, built, settleError, Payout.auth]
          · simp only [Except.bind, built]
            exact giveBack_resumes (settleError_touches row.id message moment.nowSecs rfl)
      | ok payment =>
          refine ⟨{ toTurn := .wait db (.paying (.sent row nextRequest) rest)
                    sends := some (row.id, payment) }, ?_, ?_⟩
          · simp [resumePaying, resumePayout, built, Payout.auth]
          · simp [Except.bind, built]

/-- The answer to the broadcast: a txid completes the authorization, anything else gives it back. -/
theorem resumePaying_sent (nextRequest request : Nat) (answer : Except String Text) :
    ∃ turn, resumePaying cfg moment nextRequest db (.sent row request) rest (.broadcast answer) =
        some turn ∧
      Resumes (answer.toOption.filter fun txid => !txid.isEmpty) row.id db rest turn := by
  have failed : ∀ message, ∃ turn, some (giveBack moment
      (settleError cfg moment.nowSecs row message db).db row.id rest) = some turn ∧
      Resumes none row.id db rest turn := fun message =>
    ⟨_, rfl, giveBack_resumes (settleError_touches row.id message moment.nowSecs rfl)⟩
  cases answer with
  | error message => exact failed message
  | ok txid =>
      by_cases covenants : cfg.useCovenants = true
      · cases txid with
        | nil =>
            refine ⟨giveBack moment db row.id rest, ?_, giveBack_resumes (Touches.refl _ _)⟩
            simp [resumePaying, resumePayout, settleBroadcast, covenants, markCompleted,
              Payout.auth]
        | cons digit digits =>
            refine ⟨takeNext moment (writeStatus row.id .completed moment.nowSecs
              (some (digit :: digits)) none db) rest, ?_, moment, _, rfl,
              settles_completed (Touches.refl _ _)⟩
            simp [resumePaying, resumePayout, settleBroadcast, covenants, markCompleted,
              Payout.auth]
      · cases txid with
        | nil =>
            obtain ⟨turn, same, resumes⟩ := failed "Bitcoin TXID required for completed status"
            refine ⟨turn, ?_, resumes⟩
            rw [← same]
            simp [resumePaying, resumePayout, settleBroadcast, covenants, markCompleted,
              Payout.auth, settleError]
        | cons digit digits =>
            -- the legacy sender has recorded the txid before the processor does
            let recorded := writeStatus row.id .completed moment.nowSecs (some (digit :: digits))
              none db
            refine ⟨takeNext moment (writeStatus row.id .completed moment.nowSecs
              (some (digit :: digits)) none recorded) rest, ?_, moment, _, rfl,
              settles_completed (touches_write ..)⟩
            simp [recorded, resumePaying, resumePayout, settleBroadcast, covenants, markCompleted,
              Payout.auth]

end Payout

theorem takeNext_silent (moment : Moment) (db : Db) (rest : List WithdrawalAuthorization) :
    (takeNext moment db rest).sends = none := by
  induction rest generalizing db with
  | nil => rfl
  | cons auth rest ih =>
      unfold takeNext
      dsimp only
      split_ifs
      · rfl
      · exact ih _

theorem Resumes.silent {paid : Option Text} {authId : Text} {db : Db}
    {rest : List WithdrawalAuthorization} {turn : ProcessorTurn}
    (resumes : Resumes paid authId db rest turn) : turn.sends = none := by
  obtain ⟨moment, after, rfl, -⟩ := resumes
  exact takeNext_silent moment after rest

/-- The handler `id` stands after this turn of the processor. -/
structure Stands (id : Nat) (request : Request) (turn : ProcessorTurn) (s : State) : Prop where
  db : s.db = turn.db
  tasks : s.tasks id = turn.next.map fun task => (request, .processor task)

def sentBy (turn : ProcessorTurn) : List Broadcast :=
  (turn.sends.map fun sent => (⟨sent.1, sent.2, false⟩ : Broadcast)).toList

/-- One step of the handler, seen from the others. -/
structure Turned (id : Nat) (request : Request) (turn : ProcessorTurn)
    (broadcasts : List Broadcast) (s s' : State) : Prop where
  stands : Stands id request turn s'
  others : ∀ other, other ≠ id → s'.tasks other = s.tasks other
  broadcasts : s'.broadcasts = broadcasts ++ sentBy turn

section Steps

variable {env : Environment} {id : Nat} {request : Request} {turn later : ProcessorTurn}
  {task : ProcessorTask} {s heard : State} {moment : Moment}

theorem settle_turned (same : heard.tasks = s.tasks) :
    Turned id request later heard.broadcasts s
      (settle heard id request (liftPay .processor (fun _ => .processed) later)) := by
  refine ⟨⟨rfl, ?_⟩, ?_, rfl⟩
  · rw [settle_tasks, if_pos rfl]
    cases next : later.next <;> simp [liftPay, lift, next]
  · intro other apart
    rw [settle_tasks, if_neg apart, same]

theorem reply_turned (stands : Stands id request turn s) (waits : turn.next = some task)
    {reply : Reply}
    (resumed : resume env moment s.broadcasts.length turn.db (.processor task) reply =
      some (liftPay .processor (fun _ => .processed) later)) :
    ∃ s', step env s (.reply id reply moment) = some s' ∧
      Turned id request later (landAnswered (.processor task) reply s.broadcasts) s s' := by
  have held : s.tasks id = some (request, .processor task) := by
    rw [stands.tasks, waits, Option.map_some]
  have turned : Turned id request later (hear env s (.processor task) reply).broadcasts s
      (settle (hear env s (.processor task) reply) id request
        (liftPay .processor (fun _ => .processed) later)) := settle_turned rfl
  rw [← stands.db] at resumed
  exact ⟨_, by simp [step, held, resumed], turned⟩

/-- What comes about one authorization is over: the rest of the list is taken up. -/
structure Rounded (id : Nat) (request : Request) (paid : Option Text) (authId : Text) (db : Db)
    (rest : List WithdrawalAuthorization) (sent : List Broadcast) (s s' : State) : Prop where
  stands : ∃ turn, Resumes paid authId db rest turn ∧ Stands id request turn s'
  others : ∀ other, other ≠ id → s'.tasks other = s.tasks other
  broadcasts : s'.broadcasts = s.broadcasts ++ sent

variable {script : Text → Script} {db : Db} {auth row : WithdrawalAuthorization}
  {rest : List WithdrawalAuthorization}

theorem Turned.quiet {broadcasts : List Broadcast} {s' : State}
    (turned : Turned id request later broadcasts s s') (silent : later.sends = none) :
    s'.broadcasts = broadcasts := by
  rw [turned.broadcasts, sentBy, silent]
  exact List.append_nil _

theorem land_last (broadcasts : List Broadcast) (last : Broadcast) :
    land (broadcasts ++ [last]) broadcasts.length =
      broadcasts ++ [{ last with landed := true }] := by
  induction broadcasts with
  | nil => rfl
  | cons broadcast broadcasts ih => exact congrArg (broadcast :: ·) ih

theorem paymentFor_eq {cfg : Config} (same : granted row = granted auth)
    (clear : clears cfg script auth = true) :
    paymentFor cfg script auth =
      ((script auth.id).utxos.bind fun told => buildFor cfg row told.1 told.2).toOption := by
  rw [paymentFor, if_pos clear]
  cases (script auth.id).utxos with
  | error message => rfl
  | ok told => exact congrArg Except.toOption (buildFor_congr same told.1 told.2).symm

/-- The last two answers, about a payout that has asked for UTXOs. -/
theorem payout_rounded
    (stands : Stands id request { toTurn := .wait db (.paying (.fetching row) rest) } s)
    (same : granted row = granted auth) (own : row.id = auth.id)
    (clear : clears env.toConfig script auth = true) :
    ∃ s', GuardedRun.run (step env) s
        (.reply id (.mempool (.utxos (script auth.id).utxos)) (script auth.id).utxosAt ::
          if (paymentFor env.toConfig script auth).isSome then
            [.reply id (.mempool (.broadcast (script auth.id).broadcast))
              (script auth.id).broadcastAt]
          else []) = some s' ∧
      Rounded id request (paidWith env.toConfig script auth) auth.id db rest
        (handed env.toConfig script auth).toList s s' := by
  obtain ⟨turn, resumed, told⟩ := resumePaying_fetching env.toConfig (script auth.id).utxosAt db
    row rest s.broadcasts.length (script auth.id).utxos
  have known := paymentFor_eq same clear
  have lifted : resume env (script auth.id).utxosAt s.broadcasts.length db
      (.processor (.paying (.fetching row) rest)) (.mempool (.utxos (script auth.id).utxos)) =
      some (liftPay .processor (fun _ => .processed) turn) := by
    rw [resume, resumed]
    rfl
  obtain ⟨s₁, first, turned⟩ := reply_turned stands rfl lifted
  cases outcome : (script auth.id).utxos.bind fun told =>
      buildFor env.toConfig row told.1 told.2 with
  | error message =>
      rw [outcome] at told known
      have unpaid : paymentFor env.toConfig script auth = none := known
      refine ⟨s₁, ?_, ⟨turn, ?_, turned.stands⟩, turned.others, ?_⟩
      · rw [GuardedRun.run, first, unpaid]
        rfl
      · rw [paidWith, unpaid, ← own]
        exact told
      · rw [turned.quiet told.silent, handed, unpaid]
        exact (List.append_nil _).symm
  | ok payment =>
      rw [outcome] at told known
      have paid : paymentFor env.toConfig script auth = some payment := known
      subst told
      obtain ⟨last, answered, resumes⟩ := resumePaying_sent env.toConfig
        (script auth.id).broadcastAt db row rest s₁.broadcasts.length s.broadcasts.length
        (script auth.id).broadcast
      have lifted : resume env (script auth.id).broadcastAt s₁.broadcasts.length db
          (.processor (.paying (.sent row s.broadcasts.length) rest))
          (.mempool (.broadcast (script auth.id).broadcast)) =
          some (liftPay .processor (fun _ => .processed) last) := by
        rw [resume, answered]
        rfl
      obtain ⟨s₂, second, turned'⟩ := reply_turned turned.stands rfl lifted
      refine ⟨s₂, ?_, ⟨last, ?_, turned'.stands⟩, ?_, ?_⟩
      · rw [GuardedRun.run, first, paid]
        simp [GuardedRun.run, second]
      · rw [paidWith, paid]
        rw [own] at resumes
        exact resumes
      · intro other apart
        exact (turned'.others other apart).trans (turned.others other apart)
      · have sent : s₁.broadcasts = s.broadcasts ++ [⟨auth.id, payment, false⟩] := by
          rw [turned.broadcasts, sentBy, Option.map_some, own]
          rfl
        rw [turned'.quiet resumes.silent, sent, handed, paid]
        cases (script auth.id).broadcast with
        | error message => rfl
        | ok txid => exact land_last s.broadcasts _

theorem check_turned (env : Environment) (answer : Script)
    (stands : Stands id request { toTurn := .wait db (.verifying auth rest) } s) :
    ∃ s', step env s (.reply id (.rpc (.receipt answer.receipt)) answer.receiptAt) = some s' ∧
      Turned id request
        (if isFinalized answer.receipt then
          sendPayout env.toConfig answer.receiptAt db auth rest
        else giveBack answer.receiptAt db auth.id rest) s.broadcasts s s' := by
  obtain ⟨s', stepped, turned⟩ := reply_turned stands rfl
    (rfl : resume env answer.receiptAt s.broadcasts.length db
      (.processor (.verifying auth rest)) (.rpc (.receipt answer.receipt)) = _)
  exact ⟨s', stepped, turned⟩

theorem unpaid_of_unclear {cfg : Config} (unclear : clears cfg script auth = false) :
    paymentFor cfg script auth = none := by
  rw [paymentFor, unclear]
  rfl

theorem rounded_of_resumes {s' : State} {turn : ProcessorTurn} {cfg : Config}
    (turned : Turned id request turn s.broadcasts s s')
    (resumes : Resumes none auth.id db rest turn) (unclear : clears cfg script auth = false) :
    Rounded id request (paidWith cfg script auth) auth.id db rest (handed cfg script auth).toList
      s s' := by
  have unpaid := unpaid_of_unclear unclear
  refine ⟨⟨turn, ?_, turned.stands⟩, turned.others, ?_⟩
  · rw [paidWith, unpaid]
    exact resumes
  · rw [turned.quiet resumes.silent, handed, unpaid]
    exact (List.append_nil _).symm

/-- Everything that comes about one authorization. -/
theorem auth_rounded (script : Text → Script)
    (found : getAuthorizationById db auth.id = some row)
    (same : granted row = granted auth)
    (stands : Stands id request (takeNext moment db (auth :: rest)) s) :
    ∃ s', GuardedRun.run (step env) s (repliesTo env.toConfig script id auth) = some s' ∧
      Rounded id request (paidWith env.toConfig script auth) auth.id db rest
        (handed env.toConfig script auth).toList s s' := by
  have marked : Touches auth.id db (markStatus auth.id .processing moment.nowSecs db) :=
    touches_write ..
  rw [repliesTo]
  by_cases formed : wellFormed auth = true
  · have waits : takeNext moment db (auth :: rest) =
        { toTurn := .wait (markStatus auth.id .processing moment.nowSecs db)
            (.verifying auth rest) } := if_pos formed
    rw [waits] at stands
    obtain ⟨s₁, first, turned⟩ := check_turned env (script auth.id) stands
    have named : row.id = auth.id := getAuthorizationById_id found
    have processing : ∃ marked, getAuthorizationById
        (markStatus auth.id .processing moment.nowSecs db) auth.id = some marked ∧
        marked.status = .processing ∧ granted marked = granted auth ∧ marked.id = auth.id := by
      rw [markStatus, getAuthorizationById_writeStatus, found, Option.map_some, if_pos rfl]
      exact ⟨_, rfl, rfl, same, named⟩
    obtain ⟨current, there, processing, granted_, own⟩ := processing
    have unready_unclear : ready env.toConfig auth = false →
        clears env.toConfig script auth = false := fun unready => by simp [clears, unready]
    rw [if_pos formed]
    by_cases final : isFinalized (script auth.id).receipt = true
    · rw [if_pos final] at turned
      have started :=
        sendPayout_ready env.toConfig (script auth.id).receiptAt rest there processing
      rw [ready_congr granted_] at started
      by_cases able : ready env.toConfig auth = true
      · have clear : clears env.toConfig script auth = true := by
          simp [clears, formed, final, able]
        rw [if_pos able] at started
        obtain ⟨d, touches, sends⟩ := started
        rw [sends] at turned
        obtain ⟨s', ran, rounded⟩ := payout_rounded turned.stands granted_ own clear
        obtain ⟨⟨turn, resumes, stands'⟩, others, broadcasts⟩ := rounded
        refine ⟨s', ?_, ⟨turn, resumes.after (marked.trans touches), stands'⟩, ?_, ?_⟩
        · rw [GuardedRun.run, first, if_pos clear]
          exact ran
        · exact fun other apart => (others other apart).trans (turned.others other apart)
        · rw [broadcasts, turned.quiet rfl]
      · have unclear := unready_unclear (by simpa using able)
        rw [if_neg able] at started
        refine ⟨s₁, ?_, rounded_of_resumes turned (started.after marked) unclear⟩
        rw [GuardedRun.run, first, unclear]
        rfl
    · have unclear : clears env.toConfig script auth = false := by simp [clears, final]
      rw [if_neg final] at turned
      refine ⟨s₁, ?_, rounded_of_resumes turned (giveBack_resumes marked) unclear⟩
      rw [GuardedRun.run, first, unclear]
      rfl
  · have unclear : clears env.toConfig script auth = false := by
      simp [clears, formed]
    have unpaid := unpaid_of_unclear unclear
    have passed : takeNext moment db (auth :: rest) =
        giveBack moment (markStatus auth.id .processing moment.nowSecs db) auth.id rest :=
      if_neg formed
    rw [passed] at stands
    refine ⟨s, by rw [if_neg formed]; rfl, ⟨_, ?_, stands⟩, fun _ _ => rfl, ?_⟩
    · rw [paidWith, unpaid]
      exact giveBack_resumes marked
    · rw [handed, unpaid]
      exact (List.append_nil _).symm

/-- What a poll leaves of the authorizations that it has found pending. -/
structure Drained (env : Environment) (script : Text → Script)
    (pending : List WithdrawalAuthorization) (db db' : Db) : Prop where
  vaults : db'.vaults = db.vaults
  nullifiers : db'.nullifiers = db.nullifiers
  others : ∀ other, (∀ auth ∈ pending, auth.id ≠ other) →
    getAuthorizationById db' other = getAuthorizationById db other
  outcomes : ∀ auth ∈ pending, ∃ row, getAuthorizationById db' auth.id = some row ∧
    granted row = granted auth ∧
    row.status =
      (if (paidWith env.toConfig script auth).isSome then .completed else .pending) ∧
    ∀ txid, paidWith env.toConfig script auth = some txid → row.bitcoinTxid = some txid

theorem poll_drains (script : Text → Script)
    (distinct : (rest.map WithdrawalAuthorization.id).Nodup)
    (stored : ∀ auth ∈ rest, ∃ row, getAuthorizationById db auth.id = some row ∧
      granted row = granted auth)
    (stands : Stands id request (takeNext moment db rest) s) :
    ∃ s', GuardedRun.run (step env) s (rest.flatMap (repliesTo env.toConfig script id)) = some s' ∧
      s'.tasks id = none ∧ (∀ other, other ≠ id → s'.tasks other = s.tasks other) ∧
      s'.broadcasts = s.broadcasts ++ rest.filterMap (handed env.toConfig script) ∧
      Drained env script rest db s'.db := by
  induction rest generalizing s db moment with
  | nil =>
      refine ⟨s, rfl, stands.tasks, fun _ _ => rfl, (List.append_nil _).symm, ?_⟩
      rw [stands.db]
      exact ⟨rfl, rfl, fun _ _ => rfl, fun auth member => by cases member⟩
  | cons auth rest ih =>
      obtain ⟨row, found, same⟩ := stored auth List.mem_cons_self
      obtain ⟨s₁, ran, ⟨turn, ⟨moment', after, told, settles⟩, stands'⟩, others, broadcasts⟩ :=
        auth_rounded script found same stands
      subst told
      rw [List.map_cons, List.nodup_cons] at distinct
      obtain ⟨apart, distinct⟩ := distinct
      have elsewhere : ∀ later ∈ rest, later.id ≠ auth.id := fun later member equal =>
        apart (List.mem_map.mpr ⟨later, member, equal⟩)
      obtain ⟨s', ran', ended, others', broadcasts', drained⟩ := ih distinct (by
        intro later member
        obtain ⟨held, there, fits⟩ := stored later (.tail _ member)
        exact ⟨held, (settles.others later.id (elsewhere later member)).trans there, fits⟩) stands'
      refine ⟨s', ?_, ended, ?_, ?_, ?_⟩
      · rw [List.flatMap_cons, GuardedRun.run_append, ran]
        exact ran'
      · exact fun other apart => (others' other apart).trans (others other apart)
      · rw [broadcasts', broadcasts, List.append_assoc, List.filterMap_cons]
        cases handed env.toConfig script auth <;> rfl
      · refine ⟨drained.vaults.trans settles.vaults, drained.nullifiers.trans settles.nullifiers,
          ?_, ?_⟩
        · intro other away
          rw [drained.others other fun later member => away later (.tail _ member)]
          exact settles.others other (away auth List.mem_cons_self).symm
        · intro other member
          rcases List.mem_cons.mp member with rfl | later
          · have last : getAuthorizationById s'.db other.id = getAuthorizationById after other.id :=
              drained.others other.id elsewhere
            have kept : grantOf after other.id = some (granted row) := by
              rw [settles.grant, grantOf, found, Option.map_some]
            obtain ⟨held, there, fits⟩ := Option.map_eq_some_iff.mp kept
            exact ⟨held, last.trans there, fits.trans same, settles.outcome held there⟩
          · exact drained.outcomes other later

end Steps

theorem pending_distinct (db : Db) :
    ((getPendingAuthorizations db).map WithdrawalAuthorization.id).Nodup := by
  have sorted := List.perm_insertionSort (fun a b : WithdrawalAuthorization =>
    a.createdAt ≤ b.createdAt) (db.authorizations.filter fun row => row.status == .pending)
  rw [getPendingAuthorizations, (sorted.map _).nodup_iff, List.Nodup, List.pairwise_map]
  refine (db.authorizations.distinct.sublist List.filter_sublist).imp ?_
  intro a b clear same
  simp [authorizationSchema, same] at clear

theorem pending_stored {db : Db} {auth : WithdrawalAuthorization}
    (member : auth ∈ getPendingAuthorizations db) :
    getAuthorizationById db auth.id = some auth := by
  rw [getPendingAuthorizations, List.mem_insertionSort] at member
  exact getAuthorizationById_of_mem (List.mem_of_mem_filter member)

theorem poll_begun (env : Environment) (moment : Moment) {id : Nat} {s : State}
    (idle : s.tasks id = none) :
    ∃ s₁, step env s (.request id .processAuthorizations moment) = some s₁ ∧
      Turned id .processAuthorizations (takeNext moment s.db (getPendingAuthorizations s.db))
        s.broadcasts s s₁ := by
  refine ⟨_, ?_, settle_turned rfl⟩
  simp [step, idle, begin, processAuthorizations]

/-- A poll that nothing runs beside ends after its answers, whatever they are. It has handed over
one payment for each authorization it could build one for, in the order of the list, completed
those that were answered with a txid, and left the other pending ones pending. -/
theorem poll_exact (env : Environment) (script : Text → Script) (moment : Moment) {id : Nat}
    {s : State} (idle : s.tasks id = none) :
    ∃ s', GuardedRun.run (step env) s (.request id .processAuthorizations moment ::
        (getPendingAuthorizations s.db).flatMap (repliesTo env.toConfig script id)) = some s' ∧
      s'.tasks id = none ∧ (∀ other, other ≠ id → s'.tasks other = s.tasks other) ∧
      s'.broadcasts = s.broadcasts ++
        (getPendingAuthorizations s.db).filterMap (handed env.toConfig script) ∧
      Drained env script (getPendingAuthorizations s.db) s.db s'.db := by
  obtain ⟨s₁, first, turned⟩ := poll_begun env moment idle
  obtain ⟨s', ran, ended, others, broadcasts, drained⟩ :=
    poll_drains script (pending_distinct s.db)
      (fun auth member => ⟨auth, pending_stored member, rfl⟩) turned.stands
  refine ⟨s', ?_, ended, ?_, ?_, drained⟩
  · rw [GuardedRun.run, first]
    exact ran
  · exact fun other apart => (others other apart).trans (turned.others other apart)
  · rw [broadcasts, turned.quiet (takeNext_silent ..)]

section Sample

def sampleScript : Script where
  receipt := .ok ⟨2, true, []⟩
  receiptAt := sampleMoment ['r']
  utxos := .ok ([sampleUtxo ['u']], 1)
  utxosAt := sampleMoment ['u']
  broadcast := .ok ['x']
  broadcastAt := sampleMoment ['b']

/-- The poll after a restart pays the withdrawal that was pending. -/
theorem poll_exact_restarted :
    (getPendingAuthorizations restarted.db).map
        (paidWith covenantMode.toConfig fun _ => sampleScript) = [some ['x']] ∧
      ∃ s', GuardedRun.run (step covenantMode) restarted
          (.request 0 .processAuthorizations (sampleMoment ['p']) ::
            (getPendingAuthorizations restarted.db).flatMap
              (repliesTo covenantMode.toConfig (fun _ => sampleScript) 0)) = some s' ∧
        s'.tasks 0 = none ∧ Drained covenantMode (fun _ => sampleScript)
          (getPendingAuthorizations restarted.db) restarted.db s'.db := by
  have idle : restarted.tasks 0 = none := rfl
  obtain ⟨s', ran, ended, -, -, drained⟩ :=
    poll_exact covenantMode (fun _ => sampleScript) (sampleMoment ['p']) idle
  exact ⟨by decide +kernel, s', ran, ended, drained⟩

end Sample

end PrivateBtc.Backend.Polls
