/- PrivateBtc/Backend/BoundedHandlers
   digest: How many answers a handler can wait for before it has ended. -/

import PrivateBtc.Backend.UtxoFetches
import PrivateBtc.Backend.VaultWrites

set_option autoImplicit false
set_option relaxedAutoImplicit false

namespace PrivateBtc.Backend.BoundedHandlers

open Library Library.JsText
open Authorizations Database Deposits Http Payments Processor Server Starknet UtxoFetches
  VaultWrites Withdrawals

/-- The answers that a confirmed transaction still has to wait for. -/
def afterwards : Confirmed → Nat
  | .confirm _ => 2
  | .spv _ | .relay _ => 0

/-- The answers that a deposit waits for at most. -/
def depositWork : DepositTask → Nat
  | .balance _ | .block _ _ _ => 1
  | .depositEvent _ _ => 2
  | .waiting _ attempt confirmed => maxAttempts - attempt + afterwards confirmed + 1
  | .executing _ => maxAttempts + 1
  | .header _ attempt => headerAttempts - attempt + maxAttempts + 2

def executeWork : ExecuteTask → Nat
  | .checking _ _ | .event _ _ _ => 1
  | .waiting _ attempt _ => maxAttempts - attempt + 2

def auditWork : AuditTask → Nat
  | .auditing _ rest _ => rest.length + 1
  | .syncing _ rest => rest.length + 1

section Work

-- the mempool lists `n` UTXOs at most
variable (n : Nat)

def payoutWork : Payout → Nat
  | .fetching _ => n + 3
  | .sent _ _ => 1

/-- The timer of the race is one answer more. -/
def withdrawWork : WithdrawTask → Nat
  | .executing _ _ _ => n + 5
  | .racing _ payout => payoutWork n payout + 1
  | .orphaned payout => payoutWork n payout

def processorWork : ProcessorTask → Nat
  | .verifying _ rest => (n + 4) * rest.length + (n + 4)
  | .paying payout rest => (n + 4) * rest.length + payoutWork n payout

/-- The answers and timers that a handler goes through at most before it has ended. -/
def work : Task → Nat
  | .deposit task => depositWork task
  | .withdraw task => withdrawWork n task
  | .execute task => executeWork task
  | .audit task => auditWork task
  | .processor task => processorWork n task

/-- The same, read off the request and the database it begins on. -/
def allowance (db : Db) : Request → Nat
  | .prepareDeposit _ | .verifyWithdraw _ => 1
  | .confirmDeposit _ => maxAttempts + 2
  | .relayDeposit _ | .executeWithdraw _ => maxAttempts + 1
  | .spvDeposit _ => headerAttempts + maxAttempts + 1
  | .withdraw _ => n + 5
  | .auditVerify | .autoSync => db.vaults.rows.length
  | .processAuthorizations => (n + 4) * (getPendingAuthorizations db).length

/-- A reply with the UTXOs comes after all that was asked for them. -/
def mempoolCost : MempoolReply → Nat
  | .utxos _ => n + 2
  | .broadcast _ => 1

def replyCost : Reply → Nat
  | .rpc _ => 1
  | .mempool reply => mempoolCost n reply

end Work

section Turns

variable {cfg : Config} {moment : Moment} {db : Db} {n : Nat}

theorem waitOnce_again {txHash : Text} {attempt later : Nat}
    {reply : Except String TransactionReceipt}
    (again : waitOnce txHash attempt reply = .again later) :
    later = attempt + 1 ∧ attempt < maxAttempts := by
  unfold waitOnce at again
  split at again
  · split_ifs at again
  · split_ifs at again with _ early
    cases again
    exact ⟨rfl, early⟩

theorem resumeDeposit_work {task later : DepositTask} {reply : RpcReply} {turn : DepositTurn}
    (went : resumeDeposit cfg moment db task reply = some turn) (next : turn.next = some later) :
    depositWork later < depositWork task := by
  unfold resumeDeposit at went
  split at went
  · next preparing answer =>
    cases went
    unfold afterBalance at next
    split at next
    · cases next
    · split_ifs at next
      · cases next
      · unfold Turn.orReject at next
        split at next
        · dsimp only at next
          rw [commit_next] at next
          cases next
        · cases next
  · next body attempt stored =>
    cases went
    unfold afterHeader at next
    split_ifs at next with _ early
    · cases next
      simp only [depositWork]
      omega
    · cases next
      simp only [depositWork]
      omega
    · cases next
  · next executing answer =>
    cases went
    unfold afterExecuted at next
    split at next
    · cases next
    · cases next
    · cases next
      simp [depositWork, afterwards, maxAttempts]
    · split_ifs at next
      · cases next
      · cases next
        simp [depositWork, afterwards, maxAttempts]
  · next txHash attempt confirmed answer =>
    cases went
    unfold afterReceipt at next
    split at next
    · cases confirmed with
      | confirm confirming =>
          cases next
          simp only [depositWork, afterwards]
          omega
      | spv body =>
          unfold afterConfirmed afterSpv at next
          dsimp only at next
          split at next
          · cases next
          · split at next <;> cases next
      | relay relaying =>
          unfold afterConfirmed afterRelay at next
          dsimp only at next
          split at next <;> cases next
    · cases next
    · next again =>
      cases next
      obtain ⟨rfl, early⟩ := waitOnce_again again
      simp only [depositWork]
      omega
  · next txHash confirming answer =>
    cases went
    unfold afterDepositEvent at next
    split at next
    · cases next
    · split at next
      · cases next
      · cases next
      · cases next
        simp [depositWork]
  · next txHash confirming blockNumber answer =>
    cases went
    unfold afterBlock at next
    rw [commit_next] at next
    cases next
  · cases went

theorem resumeExecute_work {task later : ExecuteTask} {reply : RpcReply} {turn : ExecuteTurn}
    (went : resumeExecute cfg moment db task reply = some turn) (next : turn.next = some later) :
    executeWork later < executeWork task := by
  unfold resumeExecute at went
  split at went
  · cases went
    unfold afterCheck at next
    dsimp only at next
    split_ifs at next <;> cases next
  · next txHash attempt withdrawal answer =>
    cases went
    unfold afterWithdrawReceipt at next
    split at next
    · cases next
      simp [executeWork]
    · cases next
    · next again =>
      cases next
      obtain ⟨rfl, early⟩ := waitOnce_again again
      simp only [executeWork]
      omega
  · cases went
    unfold afterEvent at next
    split at next
    · cases next
    · split at next
      · cases next
      · split_ifs at next
        · rw [commit_next] at next
          cases next
        · cases next
  · cases went

theorem auditNext_work {audit : Audit} {hashes : List Text} {later : AuditTask}
    (next : (auditNext db audit hashes).next = some later) : auditWork later ≤ hashes.length := by
  induction hashes generalizing audit with
  | nil => cases next
  | cons hash hashes ih =>
      unfold auditNext at next
      split_ifs at next
      · exact (ih next).trans (Nat.le_succ _)
      · cases next
        exact Nat.le_refl _

theorem syncNext_work {vaults : List VaultRow} {later : AuditTask}
    (next : (syncNext db vaults).next = some later) : auditWork later ≤ vaults.length := by
  cases vaults with
  | nil => cases next
  | cons vault vaults =>
      cases next
      exact Nat.le_refl _

theorem resumeAudit_work {task later : AuditTask} {reply : RpcReply} {turn : AuditTurn}
    (went : resumeAudit db task reply = some turn) (next : turn.next = some later) :
    auditWork later < auditWork task := by
  unfold resumeAudit at went
  split at went
  · cases went
    unfold afterAudit at next
    split at next
    · exact Nat.lt_succ_of_le (auditNext_work next)
    · dsimp only at next
      split_ifs at next <;> exact Nat.lt_succ_of_le (auditNext_work next)
  · cases went
    unfold afterSync at next
    split at next
    · split_ifs at next <;> exact Nat.lt_succ_of_le (syncNext_work next)
    · exact Nat.lt_succ_of_le (syncNext_work next)
  · cases went

theorem takeNext_work {rest : List WithdrawalAuthorization} {later : ProcessorTask}
    (next : (takeNext moment db rest).next = some later) :
    processorWork n later ≤ (n + 4) * rest.length := by
  induction rest generalizing db with
  | nil => cases next
  | cons auth rest ih =>
      unfold takeNext at next
      dsimp only at next
      rw [List.length_cons, Nat.mul_succ]
      split_ifs at next
      · cases next
        exact Nat.le_refl _
      · exact (ih next).trans (Nat.le_add_right _ _)

theorem startPayout_waits {authId : Text} {nowSecs : Nat} {payout : Payout}
    (waits : (startPayout cfg authId nowSecs db).progress = .waiting payout) :
    payoutWork n payout = n + 3 := by
  have started := startPayout_started cfg authId nowSecs db
  generalize startPayout cfg authId nowSecs db = turn at started waits
  cases started with
  | fetching _ _ =>
      cases waits
      rfl
  | failed _ => cases waits

theorem sendPayout_work {auth : WithdrawalAuthorization} {rest : List WithdrawalAuthorization}
    {later : ProcessorTask} (next : (sendPayout cfg moment db auth rest).next = some later) :
    processorWork n later ≤ (n + 4) * rest.length + (n + 3) := by
  unfold sendPayout at next
  dsimp only at next
  split at next
  · next payout waits =>
    cases next
    rw [processorWork, startPayout_waits waits]
  · exact (takeNext_work next).trans (Nat.le_add_right _ _)

/-- What a payout waits for covers the reply, and what it waits for then. -/
theorem resumePayout_work {nowSecs nextRequest : Nat} {payout : Payout} {reply : MempoolReply}
    {turn : PayoutTurn}
    (went : resumePayout cfg nowSecs nextRequest db payout reply = some turn) :
    mempoolCost n reply ≤ payoutWork n payout ∧ ∀ later, turn.progress = .waiting later →
      payoutWork n later + mempoolCost n reply ≤ payoutWork n payout := by
  have covers : mempoolCost n reply ≤ payoutWork n payout := by
    cases payout with
    | fetching auth =>
        cases reply with
        | utxos answer => exact Nat.le_succ _
        | broadcast answer => cases went
    | sent auth request =>
        cases reply with
        | utxos answer => cases went
        | broadcast answer => exact Nat.le_refl _
  refine ⟨covers, fun later waits => ?_⟩
  cases payout with
  | fetching auth =>
      cases reply with
      | utxos answer =>
          cases resumePayout_resumed cfg went with
          | send unsent _ =>
              cases waits
              simp only [payoutWork, mempoolCost]
              omega
          | failed _ _ _ => cases waits
          | paid _ _ _ => cases waits
      | broadcast answer => cases went
  | sent auth request =>
      cases resumePayout_resumed cfg went with
      | send unsent _ => cases unsent
      | failed _ _ _ => cases waits
      | paid _ _ _ => cases waits

theorem finish_ends {withdrawing : Withdrawing} {authId : Text} {result : Option Text}
    {sendError : Option String} :
    (finish moment db withdrawing authId result sendError).next = none := by
  unfold finish
  split
  · exact (closeVault_closes ..).2
  · exact (closeVault_closes ..).2

theorem attemptPayout_work {withdrawing : Withdrawing} {authId : Text} {later : WithdrawTask}
    (next : (attemptPayout cfg moment db withdrawing authId).next = some later) :
    withdrawWork n later ≤ n + 4 := by
  unfold attemptPayout at next
  dsimp only at next
  split at next
  · next payout waits =>
    cases next
    rw [withdrawWork, startPayout_waits waits]
  · rw [finish_ends] at next
    cases next

theorem authorize_work {withdrawing : Withdrawing} {later : WithdrawTask}
    (next : (authorize cfg moment db withdrawing).next = some later) :
    withdrawWork n later ≤ n + 4 := by
  have went := authorize_went cfg moment db withdrawing
  generalize authorize cfg moment db withdrawing = turn at went next
  cases went with
  | given_up _ ends =>
      rw [ends] at next
      cases next
  | created _ _ _ _ => exact attemptPayout_work next
  | retried _ _ => exact attemptPayout_work next
  | resumed _ => exact attemptPayout_work next

theorem resumeRacing_work {nextRequest : Nat} {withdrawing : Withdrawing} {payout : Payout}
    {reply : MempoolReply} {turn : WithdrawTurn}
    (went : resumeRacing cfg moment nextRequest db withdrawing payout reply = some turn) :
    mempoolCost n reply ≤ payoutWork n payout ∧ ∀ later, turn.next = some later →
      withdrawWork n later + mempoolCost n reply ≤ payoutWork n payout + 1 := by
  simp only [resumeRacing, Option.bind_eq_bind, Option.bind_eq_some_iff] at went
  obtain ⟨resumed, paid, told⟩ := went
  obtain ⟨covers, lowers⟩ := resumePayout_work paid
  refine ⟨covers, fun later next => ?_⟩
  split at told
  · next waits =>
    cases told
    cases next
    have lower := lowers _ waits
    rw [withdrawWork]
    omega
  · cases told
    rw [finish_ends] at next
    cases next

theorem resumeOrphaned_work {nextRequest : Nat} {payout : Payout} {reply : MempoolReply}
    {turn : WithdrawTurn}
    (went : resumeOrphaned cfg moment nextRequest db payout reply = some turn) :
    mempoolCost n reply ≤ payoutWork n payout ∧ ∀ later, turn.next = some later →
      withdrawWork n later + mempoolCost n reply ≤ payoutWork n payout := by
  simp only [resumeOrphaned, Option.bind_eq_bind, Option.bind_eq_some_iff] at went
  obtain ⟨resumed, paid, told⟩ := went
  obtain ⟨covers, lowers⟩ := resumePayout_work paid
  refine ⟨covers, fun later next => ?_⟩
  split at told
  · next waits =>
    cases told
    cases next
    exact lowers _ waits
  · cases told
    cases next

theorem resumePaying_work {nextRequest : Nat} {payout : Payout}
    {rest : List WithdrawalAuthorization} {reply : MempoolReply} {turn : ProcessorTurn}
    (went : resumePaying cfg moment nextRequest db payout rest reply = some turn) :
    mempoolCost n reply ≤ payoutWork n payout ∧ ∀ later, turn.next = some later →
      processorWork n later + mempoolCost n reply ≤
        (n + 4) * rest.length + payoutWork n payout := by
  simp only [resumePaying, Option.bind_eq_bind, Option.bind_eq_some_iff] at went
  obtain ⟨resumed, paid, told⟩ := went
  obtain ⟨covers, lowers⟩ := resumePayout_work paid
  have goesOn : ∀ {db : Db} {later : ProcessorTask}, (takeNext moment db rest).next = some later →
      processorWork n later + mempoolCost n reply ≤
        (n + 4) * rest.length + payoutWork n payout := fun next =>
    Nat.add_le_add (takeNext_work next) covers
  refine ⟨covers, fun later next => ?_⟩
  split at told
  · next waits =>
    cases told
    cases next
    rw [processorWork, Nat.add_assoc]
    exact Nat.add_le_add_left (lowers _ waits) _
  · cases told
    exact goesOn next
  · split at told <;> cases told <;> exact goesOn next

end Turns

variable (env : Environment) {moment : Moment} {db : Db} {n : Nat}

theorem payoutWork_pos (payout : Payout) : 0 < payoutWork n payout := by
  cases payout with
  | fetching auth => exact Nat.succ_pos _
  | sent auth request => exact Nat.succ_pos 0

theorem work_pos (task : Task) : 0 < work n task := by
  cases task with
  | deposit task => cases task <;> simp [work, depositWork]
  | withdraw task =>
      cases task with
      | executing asked vault call => exact Nat.succ_pos _
      | racing withdrawing payout => exact Nat.succ_pos _
      | orphaned payout => exact payoutWork_pos payout
  | execute task => cases task <;> simp [work, executeWork]
  | audit task => cases task <;> exact Nat.succ_pos _
  | processor task =>
      cases task with
      | verifying auth rest => exact Nat.succ_pos _
      | paying payout rest => exact Nat.add_pos_right _ (payoutWork_pos payout)

theorem replyCost_pos (reply : Reply) : 0 < replyCost n reply := by
  cases reply with
  | rpc answer => exact Nat.succ_pos 0
  | mempool answer => cases answer <;> exact Nat.succ_pos _

/-- What a handler waits for covers a reply, and what it goes on to wait for. -/
theorem resume_work {nextRequest : Nat} {task : Task} {reply : Reply} {turn : SystemTurn}
    (resumed : resume env moment nextRequest db task reply = some turn) :
    replyCost n reply ≤ work n task ∧ ∀ later, turn.next = some later →
      work n later + replyCost n reply ≤ work n task := by
  cases resume_resumed env resumed with
  | deposit went =>
      refine ⟨work_pos _, fun later next => ?_⟩
      obtain ⟨t, waits, rfl⟩ := lift_next.mp next
      exact resumeDeposit_work went waits
  | execute went =>
      refine ⟨work_pos _, fun later next => ?_⟩
      obtain ⟨t, waits, rfl⟩ := lift_next.mp next
      exact resumeExecute_work went waits
  | audit went =>
      refine ⟨work_pos _, fun later next => ?_⟩
      obtain ⟨t, waits, rfl⟩ := lift_next.mp next
      exact resumeAudit_work went waits
  | @executing request vault call answer =>
      refine ⟨work_pos _, fun later next => ?_⟩
      obtain ⟨t, waits, rfl⟩ := liftPay_next.mp next
      cases answer with
      | error failure => cases waits
      | ok txHash => exact Nat.succ_le_succ (authorize_work waits)
  | racing went =>
      obtain ⟨covers, lowers⟩ := resumeRacing_work went
      refine ⟨covers.trans (Nat.le_succ _), fun later next => ?_⟩
      obtain ⟨t, waits, rfl⟩ := liftPay_next.mp next
      exact lowers t waits
  | orphaned went =>
      obtain ⟨covers, lowers⟩ := resumeOrphaned_work went
      refine ⟨covers, fun later next => ?_⟩
      obtain ⟨t, waits, rfl⟩ := liftPay_next.mp next
      exact lowers t waits
  | @verifying auth rest answer =>
      refine ⟨work_pos _, fun later next => ?_⟩
      obtain ⟨t, waits, rfl⟩ := liftPay_next.mp next
      unfold afterVerification at waits
      split_ifs at waits
      · exact Nat.succ_le_succ (sendPayout_work waits)
      · exact Nat.add_le_add (takeNext_work waits) (Nat.succ_pos _)
  | paying went =>
      obtain ⟨covers, lowers⟩ := resumePaying_work went
      refine ⟨covers.trans (Nat.le_add_left _ _), fun later next => ?_⟩
      obtain ⟨t, waits, rfl⟩ := liftPay_next.mp next
      exact lowers t waits

theorem expire_work {task later : Task} {turn : SystemTurn}
    (went : expire moment db task = some turn) (next : turn.next = some later) :
    work n later < work n task := by
  cases expire_expired went with
  | @racing withdrawing payout =>
      obtain ⟨-, orphaned⟩ := loseRace_closes moment db withdrawing payout
      obtain ⟨t, waits, rfl⟩ := liftPay_next.mp next
      rw [orphaned] at waits
      cases waits
      exact Nat.lt_succ_self _

theorem begin_work {issued : List ProofVerifier.ProofToken} {request : Request} {later : Task}
    (next : (begin env moment issued db request).next = some later) :
    work n later ≤ allowance n db request := by
  cases request with
  | prepareDeposit body =>
      obtain ⟨t, waits, rfl⟩ := lift_next.mp next
      obtain ⟨preparing, -, rfl⟩ := orReject_next waits
      exact Nat.le_refl _
  | confirmDeposit body =>
      obtain ⟨t, waits, rfl⟩ := lift_next.mp next
      obtain ⟨confirming, -, rfl⟩ := orReject_next waits
      simp [work, depositWork, afterwards, allowance, maxAttempts]
  | relayDeposit body =>
      obtain ⟨t, waits, rfl⟩ := lift_next.mp next
      obtain ⟨relaying, -, rfl⟩ := orReject_next waits
      exact Nat.le_refl _
  | spvDeposit body =>
      obtain ⟨t, waits, rfl⟩ := lift_next.mp next
      unfold spvDeposit at waits
      split_ifs at waits <;> cases waits
      simp [work, depositWork, allowance, maxAttempts, headerAttempts]
  | withdraw body =>
      obtain ⟨t, waits, rfl⟩ := liftPay_next.mp next
      unfold Withdrawals.withdraw at waits
      split at waits
      · cases waits
      · cases waits
        exact Nat.le_refl _
      · exact (authorize_work waits).trans (Nat.le_succ _)
  | verifyWithdraw proof =>
      obtain ⟨t, waits, rfl⟩ := lift_next.mp next
      unfold Withdrawals.verifyWithdraw at waits
      split_ifs at waits
      · cases waits
      · split at waits <;> cases waits
        exact Nat.le_refl _
  | executeWithdraw body =>
      obtain ⟨t, waits, rfl⟩ := lift_next.mp next
      obtain ⟨txHash, withdrawal, rfl, -⟩ := executeWithdraw_waits waits
      simp [work, executeWork, allowance, maxAttempts]
  | auditVerify =>
      obtain ⟨t, waits, rfl⟩ := lift_next.mp next
      exact (auditNext_work waits).trans (List.length_filterMap_le _ _)
  | autoSync =>
      obtain ⟨t, waits, rfl⟩ := lift_next.mp next
      exact (syncNext_work waits).trans (List.length_filter_le _ _)
  | processAuthorizations =>
      obtain ⟨t, waits, rfl⟩ := liftPay_next.mp next
      exact takeNext_work waits

/-- What a handler still waits for at most; nothing once it has ended. -/
def remaining (n id : Nat) (s : State) : Nat :=
  match s.tasks id with
  | some (_, task) => work n task
  | none => 0

/-- The label brings the handler an answer, or its time is over. -/
def answers (id : Nat) : Label → Bool
  | .reply own _ _ | .timeout own _ => own == id
  | _ => false

def labelCost (n : Nat) : Label → Nat
  | .reply _ reply _ => replyCost n reply
  | _ => 1

/-- What the label takes of what the handler waits for. -/
def cost (n id : Nat) (label : Label) : Nat := if answers id label then labelCost n label else 0

/-- A handler that waits can always be answered. -/
theorem resume_some (moment : Moment) (db : Db) (nextRequest : Nat) (task : Task) :
    ∃ reply turn, resume env moment nextRequest db task reply = some turn := by
  cases task with
  | deposit task =>
      cases task with
      | balance preparing => exact ⟨.rpc (.balance (.ok 0)), _, rfl⟩
      | header body attempt => exact ⟨.rpc (.headerStored false), _, rfl⟩
      | executing pending => exact ⟨.rpc (.executed (.ok [])), _, rfl⟩
      | waiting txHash attempt confirmed => exact ⟨.rpc (.receipt (.error "fetch failed")), _, rfl⟩
      | depositEvent txHash confirming => exact ⟨.rpc (.receipt (.error "fetch failed")), _, rfl⟩
      | block txHash confirming blockNumber => exact ⟨.rpc (.timestamp none), _, rfl⟩
  | withdraw task =>
      cases task with
      | executing asked vault call => exact ⟨.rpc (.executed (.ok [])), _, rfl⟩
      | racing withdrawing payout =>
          cases payout with
          | fetching auth => exact ⟨.mempool (.utxos (.error "fetch failed")), _, rfl⟩
          | sent auth index => exact ⟨.mempool (.broadcast (.error "fetch failed")), _, rfl⟩
      | orphaned payout =>
          cases payout with
          | fetching auth => exact ⟨.mempool (.utxos (.error "fetch failed")), _, rfl⟩
          | sent auth index => exact ⟨.mempool (.broadcast (.error "fetch failed")), _, rfl⟩
  | execute task =>
      cases task with
      | checking vault checks => exact ⟨.rpc (.commitmentRegistered false), _, rfl⟩
      | waiting txHash attempt withdrawal => exact ⟨.rpc (.receipt (.error "fetch failed")), _, rfl⟩
      | event txHash withdrawal blockNumber =>
          exact ⟨.rpc (.receipt (.error "fetch failed")), _, rfl⟩
  | audit task =>
      cases task with
      | auditing txHash rest audit => exact ⟨.rpc (.rawReceipt none), _, rfl⟩
      | syncing vault rest => exact ⟨.rpc (.rawReceipt none), _, rfl⟩
  | processor task =>
      cases task with
      | verifying auth rest => exact ⟨.rpc (.receipt (.error "fetch failed")), _, rfl⟩
      | paying payout rest =>
          cases payout with
          | fetching auth => exact ⟨.mempool (.utxos (.error "fetch failed")), _, rfl⟩
          | sent auth index => exact ⟨.mempool (.broadcast (.error "fetch failed")), _, rfl⟩

theorem remaining_settle {s : State} {id own : Nat} {request : Request} {turn : SystemTurn} :
    remaining n id (settle s own request turn) =
      if id = own then (turn.next.map (work n)).getD 0 else remaining n id s := by
  rw [remaining, settle_tasks]
  split_ifs
  · cases turn.next <;> rfl
  · rfl

theorem settle_remaining {s heard : State} {id own taken : Nat} {request : Request} {task : Task}
    {turn : SystemTurn} (waits : s.tasks own = some (request, task)) (same : heard.tasks = s.tasks)
    (covers : taken ≤ work n task)
    (lowers : ∀ later, turn.next = some later → work n later + taken ≤ work n task) :
    remaining n id (settle heard own request turn) + (if own == id then taken else 0) ≤
      remaining n id s := by
  rw [remaining_settle]
  by_cases here : id = own
  · subst here
    have held : remaining n id s = work n task := by rw [remaining, waits]
    rw [if_pos rfl, if_pos (beq_self_eq_true id), held]
    cases next : turn.next with
    | none =>
        rw [Option.map_none, Option.getD_none, Nat.zero_add]
        exact covers
    | some later => exact lowers later next
  · have kept : remaining n id heard = remaining n id s := by rw [remaining, remaining, same]
    have elsewhere : ¬ (own == id) = true := by
      rw [beq_iff_eq]
      exact fun same => here same.symm
    rw [if_neg here, if_neg elsewhere, kept]
    exact Nat.le_refl _

/-- A label takes its cost off what its handler waits for; nothing adds to it. -/
theorem step_remaining {s s' : State} {label : Label} {id : Nat}
    (stepped : step env s label = some s')
    (once : ∀ request moment, label ≠ .request id request moment) :
    remaining n id s' + cost n id label ≤ remaining n id s := by
  cases step_stepped env stepped with
  | @request own request moment idle =>
      have apart : id ≠ own := fun same => once request moment (by rw [same])
      rw [remaining_settle, if_neg apart]
      exact Nat.le_refl _
  | reply waits resumed =>
      obtain ⟨covers, lowers⟩ := resume_work env resumed
      exact settle_remaining waits rfl covers lowers
  | timeout waits expired =>
      exact settle_remaining waits rfl (work_pos _) fun later next => expire_work expired next
  | land => exact Nat.le_refl _
  | block fresh => exact Nat.le_refl _

/-- A handler that waits can be brought to its end by its answers alone. -/
theorem answered_ends (moment : Moment) {id left : Nat} {s : State}
    (bounded : remaining n id s ≤ left) :
    ∃ more s', (∀ label ∈ more, answers id label = true) ∧ more.length ≤ left ∧
      GuardedRun.run (step env) s more = some s' ∧ s'.tasks id = none := by
  induction left generalizing s with
  | zero =>
      refine ⟨[], s, by simp, Nat.le_refl 0, rfl, ?_⟩
      cases held : s.tasks id with
      | none => rfl
      | some asked =>
          have waits : remaining n id s = work n asked.2 := by rw [remaining, held]
          have pos := work_pos (n := n) asked.2
          omega
  | succ left ih =>
      cases held : s.tasks id with
      | none => exact ⟨[], s, by simp, Nat.zero_le _, rfl, held⟩
      | some asked =>
          obtain ⟨request, task⟩ := asked
          obtain ⟨reply, turn, resumed⟩ :=
            resume_some env moment s.db s.broadcasts.length task
          have stepped : step env s (.reply id reply moment) =
              some (settle (hear env s task reply) id request turn) := by
            simp [step, held, resumed]
          have own : answers id (.reply id reply moment) = true := beq_self_eq_true id
          have taken : 0 < replyCost n reply := replyCost_pos reply
          have lower : remaining n id (settle (hear env s task reply) id request turn) +
              cost n id (.reply id reply moment) ≤ remaining n id s :=
            step_remaining env stepped (by simp)
          rw [cost, if_pos own, labelCost] at lower
          have less : remaining n id (settle (hear env s task reply) id request turn) ≤ left := by
            omega
          obtain ⟨more, s', answered, short, ran, ended⟩ := ih less
          refine ⟨.reply id reply moment :: more, s', ?_, Nat.succ_le_succ short, ?_, ended⟩
          · exact List.forall_mem_cons.mpr ⟨own, answered⟩
          · rw [GuardedRun.run, stepped]
            exact ran

/-- A label with the mempool's replies that its UTXOs come from. -/
structure Told where
  label : Label
  fetch : List FetchReply

/-- The UTXOs are those that the replies lead to, which list `n` at most. -/
def Told.Fits (cfg : Config) (n : Nat) (told : Told) : Prop :=
  match told.label with
  | .reply _ (.mempool (.utxos reply)) _ =>
      (∃ auth, Fetches cfg auth .utxos told.fetch reply) ∧ Short n told.fetch
  | _ => told.fetch = []

/-- The answers that the label stands for, if they are the handler's. -/
def Told.count (id : Nat) (told : Told) : Nat :=
  if answers id told.label then max 1 told.fetch.length else 0

theorem Told.Fits.count_le {cfg : Config} {id : Nat} {told : Told} (fits : told.Fits cfg n) :
    told.count id ≤ cost n id told.label := by
  obtain ⟨label, fetch⟩ := told
  have bound : max 1 fetch.length ≤ labelCost n label := by
    cases label with
    | reply own reply moment =>
        refine max_le (replyCost_pos reply) ?_
        cases reply with
        | rpc answer =>
            rw [show fetch = [] from fits]
            exact Nat.zero_le _
        | mempool answer =>
            cases answer with
            | utxos reply =>
                obtain ⟨⟨auth, fetches⟩, short⟩ := fits
                exact fetches.requests_le short
            | broadcast reply =>
                rw [show fetch = [] from fits]
                exact Nat.zero_le _
    | request | timeout | land | block =>
        rw [show fetch = [] from fits]
        exact Nat.le_refl 1
  rw [count, cost]
  split_ifs
  · exact bound
  · exact Nat.le_refl 0

/-- Whatever runs beside it, a handler has ended after at most its allowance of answers, counting
what is asked for each list of UTXOs, and it can be brought to its end by answers alone. -/
theorem handlers_end (n : Nat) (moment later : Moment) {s s' : State} {id : Nat}
    {request : Request} {labels : List Told}
    (ran : GuardedRun.run (step env) s
      (.request id request moment :: labels.map Told.label) = some s')
    (once : ∀ told ∈ labels, ∀ other time, told.label ≠ .request id other time)
    (fits : ∀ told ∈ labels, told.Fits env.toConfig n) :
    ∃ more ended, (∀ label ∈ more, answers id label = true) ∧
      (labels.map (Told.count id)).sum + more.length ≤ allowance n s.db request ∧
      GuardedRun.run (step env) s' more = some ended ∧ ended.tasks id = none := by
  rw [GuardedRun.run, Option.bind_eq_some_iff] at ran
  obtain ⟨begun, stepped, rest⟩ := ran
  have first : remaining n id begun ≤ allowance n s.db request := by
    cases step_stepped env stepped with
    | request idle =>
        rw [remaining_settle, if_pos rfl]
        cases next : (begin env moment s.issued s.db request).next with
        | none => exact Nat.zero_le _
        | some task => exact begin_work env next
  have spent : remaining n id s' + (labels.map (Told.count id)).sum ≤ remaining n id begun := by
    refine GuardedRun.run_spends (fun told member before after went => ?_) rest
    exact (Nat.add_le_add_left (fits told member).count_le _).trans
      (step_remaining env went (once told member))
  obtain ⟨more, ended, answered, short, finished, none_⟩ :=
    answered_ends env later (Nat.le_refl (remaining n id s'))
  exact ⟨more, ended, answered, by omega, finished, none_⟩

section Sample

/-- A list of one UTXO, and its transaction. -/
def asked : List FetchReply :=
  [.utxos (.ok [unscripted (sampleUtxo ['u'])]), .transaction (.ok [['5', '1']])]

theorem asked_fetches (auth : WithdrawalAuthorization) :
    Fetches covenantMode.toConfig auth .utxos asked (.ok ([sampleUtxo ['u']], 1)) :=
  .asks rfl (.ends rfl)

def toldLabels : List Told :=
  [⟨.reply 1 (.rpc (.executed (.ok (sampleHash '4')))) (sampleMoment ['w']), []⟩,
    ⟨fetchLabel 1 ['u'], asked⟩]

/-- The withdrawal of the sample deposit has had three of its six answers, two of them for the
UTXOs. -/
theorem handlers_end_sample :
    ∃ s s', GuardedRun.run (step covenantMode) (boot sampleGenesis) depositLabels = some s ∧
      GuardedRun.run (step covenantMode) s (.request 1 (.withdraw sampleWithdraw)
        (sampleMoment ['w']) :: toldLabels.map Told.label) = some s' ∧
      ∃ more ended, (∀ label ∈ more, answers 1 label = true) ∧ 3 + more.length ≤ 6 ∧
        GuardedRun.run (step covenantMode) s' more = some ended ∧ ended.tasks 1 = none := by
  have ran : ((GuardedRun.run (step covenantMode) (boot sampleGenesis) depositLabels).bind fun s =>
      (GuardedRun.run (step covenantMode) s (.request 1 (.withdraw sampleWithdraw)
        (sampleMoment ['w']) :: toldLabels.map Told.label)).map fun s' => (s, s')).isSome := by
    decide +kernel
  obtain ⟨pair, ran⟩ := Option.isSome_iff_exists.mp ran
  obtain ⟨s, deposited, later⟩ := Option.bind_eq_some_iff.mp ran
  obtain ⟨s', withdrawn, rfl⟩ := Option.map_eq_some_iff.mp later
  have fits : ∀ told ∈ toldLabels, told.Fits covenantMode.toConfig 1 := by
    intro told member
    rw [toldLabels, List.mem_cons, List.mem_singleton] at member
    rcases member with rfl | rfl
    · rfl
    · refine ⟨⟨⟨[], [], [], [], [], 0, .pending, 0, none, none, none⟩, asked_fetches _⟩, ?_⟩
      intro allUtxos listed
      simp only [asked, List.mem_cons, FetchReply.utxos.injEq, Except.ok.injEq, reduceCtorEq,
        List.not_mem_nil, or_false] at listed
      rw [listed]
      exact Nat.le_refl 1
  refine ⟨s, s', deposited, withdrawn, ?_⟩
  exact handlers_end covenantMode 1 (sampleMoment ['w']) (sampleMoment ['e']) withdrawn
    (by simp [toldLabels, fetchLabel]) fits

end Sample

end PrivateBtc.Backend.BoundedHandlers
