/- PrivateBtc/Backend/VaultWrites
   digest: Which statement a step of the server issues on the vaults, and for which handler. -/

import PrivateBtc.Backend.Server

set_option autoImplicit false
set_option relaxedAutoImplicit false

namespace PrivateBtc.Backend.VaultWrites

open Library Library.JsText Library.Outcome
open Authorizations Database Deposits Http Payments Processor Server Starknet Withdrawals
open WithdrawGate (WithdrawRequest WithdrawCall)

/-- A statement on vaults, with the nullifier that goes in the same transaction. -/
inductive VaultWrite where
  | insert (row : VaultRow)
  | activate (vaultId txHash : Text)
  | revive (row : VaultRow)
  | reviveRelayed (relaying : Relaying) (txHash : Text)
  | refresh (task : AuditTask) (status : VaultStatus)
  | close (withdrawing : Withdrawing)
  | spend (txHash nullifierHash : Text) (withdrawal : ExecutingWithdrawal) (usedAt : Nat)

namespace VaultWrite

def selects : VaultWrite → VaultRow → Bool
  | .insert _ => fun _ => false
  | .activate vaultId _ => fun v => v.id == vaultId
  | .revive row => fun v => v.id == row.id
  | .reviveRelayed relaying _ => fun v => v.id == relaying.body.vaultId
  | .refresh task _ => refreshed task
  | .close withdrawing => fun v => v.id == withdrawing.vaultId
  | .spend _ _ withdrawal _ => fun v => v.id == withdrawal.vaultId

def change : VaultWrite → VaultRow → VaultRow
  | .insert _ => fun v => v
  | .activate _ txHash => activated txHash
  | .revive row => revived row
  | .reviveRelayed relaying txHash => relayRevived relaying txHash
  | .refresh _ status => fun v => { v with status }
  | .close withdrawing => closed withdrawing
  | .spend txHash nullifierHash _ _ => spent txHash nullifierHash

def added : VaultWrite → List VaultRow
  | .insert row => [row]
  | _ => []

def uses : VaultWrite → List NullifierRow
  | .spend txHash nullifierHash withdrawal usedAt =>
      [⟨nullifierHash, withdrawal.vaultId, usedAt, txHash⟩]
  | _ => []

def written (write : VaultWrite) (v : VaultRow) : VaultRow :=
  if write.selects v then write.change v else v

/-- The rows after the statement. -/
def onVaults (write : VaultWrite) (rows : List VaultRow) : List VaultRow :=
  rows.map write.written ++ write.added

/-- The status that the statement gives to the vaults it selects. -/
def status : VaultWrite → VaultStatus
  | .insert row => row.status
  | .activate .. | .revive _ | .reviveRelayed .. => .active
  | .refresh _ status => status
  | .close _ | .spend .. => .withdrawn

theorem change_same (write : VaultWrite) (v : VaultRow) : SameVault v (write.change v) := by
  cases write <;> exact ⟨rfl, rfl, rfl, rfl⟩

theorem written_same (write : VaultWrite) (v : VaultRow) : SameVault v (write.written v) := by
  unfold written
  split_ifs
  · exact write.change_same v
  · exact SameVault.refl v

theorem written_id (write : VaultWrite) (v : VaultRow) : (write.written v).id = v.id :=
  (write.written_same v).id

theorem change_status {write : VaultWrite} {v : VaultRow} (selected : write.selects v = true) :
    (write.change v).status = write.status := by
  cases write <;> first | rfl | cases selected

end VaultWrite

/-- The database changes by one of the statements in question, or the two tables stay. -/
inductive Wrote (issued : VaultWrite → Prop) (db db' : Db) : Prop where
  | nothing (vaults : db'.vaults = db.vaults) (nullifiers : db'.nullifiers = db.nullifiers)
  | wrote (write : VaultWrite) (told : issued write)
      (vaults : db'.vaults.rows = write.onVaults db.vaults.rows)
      (nullifiers : db'.nullifiers.rows = db.nullifiers.rows ++ write.uses)

namespace Wrote

variable {issued : VaultWrite → Prop} {db db₁ db' : Db}

theorem after (vaults : db₁.vaults = db.vaults) (nullifiers : db₁.nullifiers = db.nullifiers)
    (wrote : Wrote issued db₁ db') : Wrote issued db db' := by
  cases wrote with
  | nothing same unspent => exact .nothing (same.trans vaults) (unspent.trans nullifiers)
  | wrote write told rows spends => exact .wrote write told (vaults ▸ rows) (nullifiers ▸ spends)

theorem of_apart (apart : Apart db db') (write : VaultWrite) (told : issued write)
    (unspent : write.uses = []) (rows : db'.vaults.rows = write.onVaults db.vaults.rows) :
    Wrote issued db db' := by
  refine .wrote write told rows ?_
  rw [apart.nullifiers, unspent, List.append_nil]

/-- An UPDATE that adds no row. -/
theorem of_update (apart : Apart db db') (write : VaultWrite) (told : issued write)
    (unspent : write.uses = []) (nothing : write.added = [])
    (rows : db'.vaults.rows = db.vaults.rows.map write.written) : Wrote issued db db' := by
  refine of_apart apart write told unspent ?_
  rw [rows, VaultWrite.onVaults, nothing, List.append_nil]

/-- An INSERT that changes no row. -/
theorem of_insert (apart : Apart db db') {row : VaultRow} (told : issued (.insert row))
    (rows : db'.vaults.rows = db.vaults.rows ++ [row]) : Wrote issued db db' := by
  refine of_apart apart (.insert row) told rfl ?_
  have same : ∀ v : VaultRow, (VaultWrite.insert row).written v = v := fun _ => rfl
  rw [rows, VaultWrite.onVaults, List.map_congr_left fun v _ => same v, List.map_id']
  rfl

/-- No vault is deleted. -/
theorem kept (wrote : Wrote issued db db') {row : VaultRow} (member : row ∈ db.vaults.rows) :
    ∃ row' ∈ db'.vaults.rows, SameVault row row' := by
  cases wrote with
  | nothing vaults _ => exact ⟨row, by rwa [vaults], SameVault.refl row⟩
  | wrote write _ rows _ =>
      refine ⟨write.written row, ?_, write.written_same row⟩
      rw [rows]
      exact List.mem_append_left _ (List.mem_map_of_mem member)

end Wrote

variable (env : Environment)

/-- The statements on vaults that a step may issue, each with the handler it comes from. -/
inductive Issues (s : State) : Label → VaultWrite → Prop where
  | prepared {id : Nat} {request : Request} {moment : Moment} {reply : Reply}
      {preparing : Preparing} {row : VaultRow}
      (waits : s.tasks id = some (request, .deposit (.balance preparing)))
      (made : preparedRow env.toConfig moment preparing = .ok row) :
      Issues s (.reply id reply moment) (.insert row)
  | activated {id : Nat} {request : Request} {moment : Moment} {reply : Reply} {txHash : Text}
      {confirming : Confirming} {blockNumber timestamp : Nat} {db' : Db}
      (waits : s.tasks id = some (request, .deposit (.block txHash confirming blockNumber)))
      (stored : activate moment txHash confirming blockNumber timestamp s.db = .ok db') :
      Issues s (.reply id reply moment) (.activate confirming.vaultId txHash)
  | spv {id attempt : Nat} {request : Request} {moment : Moment} {receipt : TransactionReceipt}
      {txHash vaultId nullifierHash : Text} {body : SpvDepositBody} {amount : Int} {db' : Db}
      {write : VaultWrite}
      (waits : s.tasks id = some (request, .deposit (.waiting txHash attempt (.spv body))))
      (succeeded : receipt.succeeded = true) (stores : body.stores = some (vaultId, nullifierHash))
      (converted : amountInWei body.amount = some amount)
      (stored : storeSpv (spvRow env.toConfig moment body vaultId nullifierHash txHash amount)
        s.db = .ok db')
      (told : write = if (vaultById s.db vaultId).isSome
        then .revive (spvRow env.toConfig moment body vaultId nullifierHash txHash amount)
        else .insert (spvRow env.toConfig moment body vaultId nullifierHash txHash amount)) :
      Issues s (.reply id (.rpc (.receipt (.ok receipt))) moment) write
  | relayed {id attempt : Nat} {request : Request} {moment : Moment} {receipt : TransactionReceipt}
      {txHash : Text} {relaying : Relaying} {db' : Db} {write : VaultWrite}
      (waits : s.tasks id = some (request, .deposit (.waiting txHash attempt (.relay relaying))))
      (succeeded : receipt.succeeded = true)
      (stored : storeRelayed moment relaying txHash s.db = .ok db')
      (told : write = .insert (relayRow moment relaying txHash) ∨
        write = .reviveRelayed relaying txHash) :
      Issues s (.reply id (.rpc (.receipt (.ok receipt))) moment) write
  | refreshed {id : Nat} {request : Request} {moment : Moment} {reply : RpcReply}
      {task : AuditTask} {status : VaultStatus}
      (waits : s.tasks id = some (request, .audit task)) (told : finds task reply = some status) :
      Issues s (.reply id (.rpc reply) moment) (.refresh task status)
  | submitted {id : Nat} {asked : Request} {moment : Moment} {request : WithdrawRequest}
      {vault : VaultRow} {call : WithdrawCall} {txHash : Text}
      (waits : s.tasks id = some (asked, .withdraw (.executing request vault call))) :
      Issues s (.reply id (.rpc (.executed (.ok txHash))) moment)
        (.close ⟨request, vault.id, txHash, false⟩)
  | raced {id : Nat} {request : Request} {moment : Moment} {reply : Reply}
      {withdrawing : Withdrawing} {payout : Payout}
      (waits : s.tasks id = some (request, .withdraw (.racing withdrawing payout)))
      (first : withdrawing.isRetry = false) :
      Issues s (.reply id reply moment) (.close withdrawing)
  | expired {id : Nat} {request : Request} {moment : Moment} {withdrawing : Withdrawing}
      {payout : Payout}
      (waits : s.tasks id = some (request, .withdraw (.racing withdrawing payout)))
      (first : withdrawing.isRetry = false) : Issues s (.timeout id moment) (.close withdrawing)
  | spent {id blockNumber : Nat} {request : Request} {moment : Moment} {reply : Reply}
      {txHash nullifierHash : Text} {withdrawal : ExecutingWithdrawal}
      {receipt : TransactionReceipt} {db' : Db}
      (waits : s.tasks id = some (request, .execute (.event txHash withdrawal blockNumber)))
      (own : withdrawal.nullifierHash = some nullifierHash)
      (answer : reply = .rpc (.receipt (.ok receipt)))
      (shown : verifyWithdrawalEvent env.vaultContractAddress receipt nullifierHash = true)
      (stored : spend moment txHash nullifierHash withdrawal blockNumber s.db = .ok db') :
      Issues s (.reply id reply moment) (.spend txHash nullifierHash withdrawal moment.nowSecs)

section Turns

variable {issued : VaultWrite → Prop} {db : Db}

theorem closes_wrote {withdrawing : Withdrawing} {turn : WithdrawTurn}
    (closes : Closes withdrawing db turn)
    (told : withdrawing.isRetry = false → issued (.close withdrawing)) :
    Wrote issued db turn.db := by
  rcases closes.vaults with same | ⟨first, rows⟩
  · exact .nothing same closes.apart.nullifiers
  · exact .of_update closes.apart (.close withdrawing) (told first) rfl rfl rows

theorem attempted_wrote {authId : Text} {withdrawing : Withdrawing} {turn : WithdrawTurn}
    (attempted : Attempted authId withdrawing db turn)
    (told : withdrawing.isRetry = false → issued (.close withdrawing)) :
    Wrote issued db turn.db := by
  cases attempted with
  | racing marks _ => exact .nothing marks.vaults marks.nullifiers
  | ended marks closes _ => exact .after marks.vaults marks.nullifiers (closes_wrote closes told)

theorem authorized_wrote {withdrawing : Withdrawing} {turn : WithdrawTurn}
    (authorized : Authorized withdrawing db turn)
    (told : withdrawing.isRetry = false → issued (.close withdrawing)) :
    Wrote issued db turn.db := by
  cases authorized with
  | given_up closes _ => exact closes_wrote closes told
  | attempted takes attempt =>
      cases takes with
      | created _ row _ =>
          obtain ⟨-, -, -, vaults, nullifiers⟩ := createAuthorization_ok row
          exact .after vaults nullifiers (attempted_wrote attempt told)
      | existing _ marks =>
          exact .after marks.vaults marks.nullifiers (attempted_wrote attempt told)

theorem raceResumed_wrote {nextRequest : Nat} {withdrawing : Withdrawing} {payout : Payout}
    {reply : MempoolReply} {turn : WithdrawTurn}
    (resumed : RaceResumed nextRequest db withdrawing payout reply turn)
    (told : withdrawing.isRetry = false → issued (.close withdrawing)) :
    Wrote issued db turn.db := by
  cases resumed with
  | send _ _ => exact .nothing rfl rfl
  | failed marks _ closes _ =>
      exact .after marks.vaults marks.nullifiers (closes_wrote closes told)
  | paid _ _ completes closes _ =>
      exact .after completes.vaults completes.nullifiers (closes_wrote closes told)

theorem orphanResumed_wrote {cfg : Config} {nextRequest : Nat} {payout : Payout}
    {reply : MempoolReply} {turn : WithdrawTurn}
    (resumed : OrphanResumed cfg nextRequest db payout reply turn) : Wrote issued db turn.db := by
  cases resumed with
  | send _ _ => exact .nothing rfl rfl
  | failed marks _ _ => exact .nothing marks.vaults marks.nullifiers
  | lost _ => exact .nothing rfl rfl
  | paid _ _ _ completes => exact .nothing completes.vaults completes.nullifiers

theorem payoutSent_wrote {cfg : Config} {moment : Moment} {auth : WithdrawalAuthorization}
    {rest : List WithdrawalAuthorization} {turn : ProcessorTurn}
    (sent : PayoutSent cfg moment auth rest db turn) : Wrote issued db turn.db := by
  cases sent with
  | paying marks _ => exact .nothing marks.vaults marks.nullifiers
  | given_back _ continues_ => exact .nothing continues_.marks.vaults continues_.marks.nullifiers

theorem payingResumed_wrote {cfg : Config} {moment : Moment} {nextRequest : Nat} {payout : Payout}
    {rest : List WithdrawalAuthorization} {reply : MempoolReply} {turn : ProcessorTurn}
    (resumed : PayingResumed cfg moment nextRequest db payout rest reply turn) :
    Wrote issued db turn.db := by
  cases resumed with
  | send _ _ => exact .nothing rfl rfl
  | failed _ _ continues_ => exact .nothing continues_.marks.vaults continues_.marks.nullifiers
  | paid _ _ _ completes continues_ =>
      exact .nothing (continues_.marks.vaults.trans completes.vaults)
        (continues_.marks.nullifiers.trans completes.nullifiers)

end Turns

theorem begin_wrote {issued : VaultWrite → Prop} (moment : Moment)
    (tokens : List ProofVerifier.ProofToken) (db : Db) (request : Request) : Wrote issued db (begin env moment tokens db request).db := by
  have begun := begin_begun env moment tokens db request
  generalize (begin env moment tokens db request).db = db' at begun ⊢
  cases begun with
  | unchanged => exact .nothing rfl rfl
  | retried _ => exact authorized_wrote (authorize_authorized ..) fun first => by cases first
  | polled =>
      have continues_ := takeNext_continues moment db (getPendingAuthorizations db)
      exact .nothing continues_.marks.vaults continues_.marks.nullifiers

theorem deposit_wrote {s : State} {id : Nat} {request : Request} {task : DepositTask}
    {reply : RpcReply} {moment : Moment} {db' : Db}
    (waits : s.tasks id = some (request, .deposit task))
    (writes : DepositWrites env.toConfig moment s.db task reply db') :
    Wrote (Issues env s (.reply id (.rpc reply) moment)) s.db db' := by
  cases writes with
  | nothing => exact .nothing rfl rfl
  | prepared waited made stored =>
      subst waited
      obtain ⟨rows, apart⟩ := insertPrepared_ok stored
      exact .of_insert apart (.prepared waits made) rows
  | @spv txHash vaultId nullifierHash attempt body receipt amount _ waited shown succeeded stores
      converted stored =>
      subst waited shown
      obtain ⟨rows, apart⟩ := storeSpv_ok stored
      rcases rows with ⟨missing, rows⟩ | ⟨known, rows⟩
      · refine .of_insert apart (.spv waits succeeded stores converted stored ?_) rows
        rw [show vaultById s.db vaultId = none from missing]
        rfl
      · refine .of_update apart (.revive _)
          (.spv waits succeeded stores converted stored ?_) rfl rfl rows
        rw [show (vaultById s.db vaultId).isSome = true from known]
        rfl
  | relayed waited shown succeeded stored =>
      subst waited shown
      obtain ⟨rows, apart⟩ := storeRelayed_ok moment stored
      rcases rows with rows | rows
      · exact .of_insert apart (.relayed waits succeeded stored (Or.inl rfl)) rows
      · exact .of_update apart (.reviveRelayed ..)
          (.relayed waits succeeded stored (Or.inr rfl)) rfl rfl rows
  | activated waited stored =>
      subst waited
      obtain ⟨rows, apart⟩ := activate_ok moment stored
      exact .of_update apart (.activate ..) (.activated waits stored) rfl rfl rows

theorem execute_wrote {s : State} {id : Nat} {request : Request} {task : ExecuteTask}
    {reply : RpcReply} {moment : Moment} {db' : Db}
    (waits : s.tasks id = some (request, .execute task))
    (writes : ExecuteWrites env.toConfig moment s.db task reply db') :
    Wrote (Issues env s (.reply id (.rpc reply) moment)) s.db db' := by
  cases writes with
  | nothing => exact .nothing rfl rfl
  | spent waited own answer shown stored =>
      subst waited answer
      obtain ⟨rows, -, uses⟩ := spend_ok moment stored
      refine .wrote (.spend ..) (.spent waits own rfl shown stored) ?_ uses
      show db'.vaults.rows = s.db.vaults.rows.map _ ++ []
      rw [List.append_nil]
      exact rows

theorem audit_wrote {s : State} {id : Nat} {request : Request} {task : AuditTask}
    {reply : RpcReply} {moment : Moment} {turn : AuditTurn}
    (waits : s.tasks id = some (request, .audit task))
    (refreshes : Refreshes s.db task reply turn) :
    Wrote (Issues env s (.reply id (.rpc reply) moment)) s.db turn.db := by
  rw [refreshes.writes]
  cases told : finds task reply with
  | none => exact .nothing rfl rfl
  | some status =>
      exact .of_update ⟨rfl, rfl⟩ (.refresh task status) (.refreshed waits told) rfl rfl rfl

theorem resume_wrote {s : State} {id : Nat} {request : Request} {task : Task} {reply : Reply}
    {moment : Moment} {nextRequest : Nat} {turn : SystemTurn}
    (waits : s.tasks id = some (request, task))
    (resumed : resume env moment nextRequest s.db task reply = some turn) :
    Wrote (Issues env s (.reply id reply moment)) s.db turn.db := by
  cases resume_resumed env resumed with
  | deposit went => exact deposit_wrote env waits (resumeDeposit_writes _ _ went)
  | execute went => exact execute_wrote env waits (resumeExecute_writes _ _ went)
  | audit went => exact audit_wrote env waits (resumeAudit_refreshes went)
  | @executing request vault call answer =>
      cases answer with
      | error failure => exact .nothing rfl rfl
      | ok txHash =>
          exact authorized_wrote (authorize_authorized ..) fun _ => .submitted waits
  | racing went =>
      exact raceResumed_wrote (resumeRacing_resumed _ _ went) fun first => .raced waits first
  | orphaned went => exact orphanResumed_wrote (resumeOrphaned_resumed _ _ went)
  | @verifying auth rest answer =>
      unfold afterVerification
      split_ifs
      · exact payoutSent_wrote (sendPayout_sent ..)
      · have continues_ := giveBack_continues moment (Marks.refl {auth.id} s.db) rest
        exact .nothing continues_.marks.vaults continues_.marks.nullifiers
  | paying went => exact payingResumed_wrote (resumePaying_resumed _ _ went)

theorem expire_wrote {s : State} {id : Nat} {request : Request} {task : Task}
    {moment : Moment} {turn : SystemTurn} (waits : s.tasks id = some (request, task))
    (expired : expire moment s.db task = some turn) :
    Wrote (Issues env s (.timeout id moment)) s.db turn.db := by
  cases expire_expired expired with
  | @racing withdrawing payout =>
      have closes := (loseRace_closes moment s.db withdrawing payout).1
      exact closes_wrote closes fun first => .expired waits first

/-- A step issues at most one statement on the vaults. -/
theorem step_wrote {s s' : State} {label : Label} (stepped : step env s label = some s') :
    Wrote (Issues env s label) s.db s'.db := by
  cases step_stepped env stepped with
  | request idle => exact begin_wrote env ..
  | reply waits resumed => exact resume_wrote env waits resumed
  | timeout waits expired => exact expire_wrote env waits expired
  | land => exact .nothing rfl rfl
  | block fresh => exact .nothing rfl rfl

/-- A vault enters the table pending or active, and without a withdrawal. -/
theorem insert_open {s : State} {label : Label} {row : VaultRow}
    (issues : Issues env s label (.insert row)) :
    row.status ≠ .withdrawn ∧ row.withdrawTxHash = none := by
  cases issues with
  | prepared _ made =>
      simp only [preparedRow, bind_eq_ok, pure_eq_ok, Except.ok.injEq] at made
      obtain ⟨commitment, -, nullifierHash, -, rfl⟩ := made
      exact ⟨by simp, rfl⟩
  | spv _ _ _ _ _ told =>
      split_ifs at told
      cases told
      exact ⟨by simp [spvRow], rfl⟩
  | relayed _ _ _ told =>
      rcases told with told | told
      · cases told
        exact ⟨by simp [relayRow], rfl⟩
      · cases told

/-- The vault that a waiting withdrawal will close, and the nullifier it was asked for. -/
def about : Task → Option (Text × Option Text)
  | .withdraw (.executing request vault _) => some (vault.id, some request.nullifierHash)
  | .withdraw (.racing withdrawing _) =>
      if withdrawing.isRetry then none
      else some (withdrawing.vaultId, some withdrawing.request.nullifierHash)
  | .execute (.waiting _ _ withdrawal) | .execute (.event _ withdrawal _) =>
      some (withdrawal.vaultId, withdrawal.nullifierHash)
  | _ => none

theorem close_about {s : State} {label : Label} {withdrawing : Withdrawing}
    (issues : Issues env s label (.close withdrawing)) :
    ∃ id request task, s.tasks id = some (request, task) ∧
      about task = some (withdrawing.vaultId, some withdrawing.request.nullifierHash) := by
  cases issues with
  | submitted waits => exact ⟨_, _, _, waits, rfl⟩
  | raced waits first => exact ⟨_, _, _, waits, by rw [about, first]; rfl⟩
  | expired waits first => exact ⟨_, _, _, waits, by rw [about, first]; rfl⟩
  | spv _ _ _ _ _ told => split_ifs at told
  | relayed _ _ _ told => rcases told with told | told <;> cases told

theorem spend_about {s : State} {label : Label} {txHash nullifierHash : Text}
    {withdrawal : ExecutingWithdrawal} {usedAt : Nat}
    (issues : Issues env s label (.spend txHash nullifierHash withdrawal usedAt)) :
    ∃ id request task, s.tasks id = some (request, task) ∧
      about task = some (withdrawal.vaultId, some nullifierHash) := by
  cases issues with
  | spent waits own _ _ _ => exact ⟨_, _, _, waits, by rw [about, own]⟩
  | spv _ _ _ _ _ told => split_ifs at told
  | relayed _ _ _ told => rcases told with told | told <;> cases told

/-- What a handler goes on to is about the vault that it was about. -/
def Stays (task : Task) (turn : SystemTurn) : Prop :=
  ∀ later, turn.next = some later → ∀ subject, about later = some subject →
    about task = some subject

theorem stays_of_unasked {T A : Type} {task : Task} {wrap : T → Task} {answer : A → Answer}
    {turn : Turn T A} (unasked : ∀ t, about (wrap t) = none) :
    Stays task (lift wrap answer turn) := by
  intro later next subject told
  obtain ⟨t, _, rfl⟩ := Option.map_eq_some_iff.mp next
  rw [unasked t] at told
  cases told

theorem stays_of_end {task : Task} {turn : SystemTurn} (ends : turn.next = none) :
    Stays task turn := by
  intro later next
  rw [ends] at next
  cases next

theorem processor_stays (task : Task) (turn : ProcessorTurn) :
    Stays task (liftPay .processor (fun _ => .processed) turn) := by
  intro later next subject told
  obtain ⟨t, _, rfl⟩ := Option.map_eq_some_iff.mp next
  cases told

theorem authorized_stays {db : Db} {task : Task} {withdrawing : Withdrawing} {turn : WithdrawTurn}
    {answer : WithdrawAnswer → Answer} (authorized : Authorized withdrawing db turn)
    (known : ∀ payout subject, about (.withdraw (.racing withdrawing payout)) = some subject →
      about task = some subject) : Stays task (liftPay .withdraw answer turn) := by
  cases authorized with
  | given_up _ ends => exact stays_of_end (by simp [liftPay, lift, ends])
  | attempted _ attempt =>
      cases attempt with
      | racing _ _ =>
          intro later next subject told
          cases next
          exact known _ subject told
      | ended _ _ ends => exact stays_of_end (by simp [liftPay, lift, ends])

theorem execute_stays {cfg : Config} {moment : Moment} {db : Db} {task : ExecuteTask}
    {reply : RpcReply} {turn : ExecuteTurn}
    (resumed : resumeExecute cfg moment db task reply = some turn) :
    Stays (.execute task) (lift .execute .execute turn) := by
  unfold resumeExecute at resumed
  split at resumed
  · cases resumed
    refine stays_of_end ?_
    unfold afterCheck
    dsimp only
    split_ifs <;> rfl
  · next txHash attempt withdrawal answer =>
    cases resumed
    intro later next subject told
    unfold afterWithdrawReceipt at next
    split at next <;> cases next <;> exact told
  · next txHash withdrawal blockNumber answer =>
    cases resumed
    refine stays_of_end ?_
    unfold afterEvent
    split
    · rfl
    · split
      · rfl
      · split_ifs
        · cases spend moment txHash _ withdrawal blockNumber db <;> rfl
        · rfl
  · cases resumed

theorem resume_stays {moment : Moment} {nextRequest : Nat} {db : Db} {task : Task} {reply : Reply}
    {turn : SystemTurn} (resumed : resume env moment nextRequest db task reply = some turn) :
    Stays task turn := by
  cases resume_resumed env resumed with
  | deposit _ => exact stays_of_unasked fun _ => rfl
  | execute went => exact execute_stays went
  | audit _ => exact stays_of_unasked fun _ => rfl
  | @executing request vault call answer =>
      cases answer with
      | error failure => exact stays_of_end rfl
      | ok txHash => exact authorized_stays (authorize_authorized ..) fun _ _ told => told
  | racing went =>
      cases resumeRacing_resumed _ _ went with
      | send _ _ =>
          intro later next subject told
          cases next
          exact told
      | failed _ _ _ ends => exact stays_of_end (by simp [liftPay, lift, ends])
      | paid _ _ _ _ ends => exact stays_of_end (by simp [liftPay, lift, ends])
  | orphaned went =>
      intro later next subject told
      cases resumeOrphaned_resumed _ _ went <;> cases next
      cases told
  | verifying => exact processor_stays _ _
  | paying _ => exact processor_stays _ _

theorem expire_stays {moment : Moment} {db : Db} {task : Task} {turn : SystemTurn}
    (expired : expire moment db task = some turn) : Stays task turn := by
  cases expire_expired expired with
  | @racing withdrawing payout =>
      obtain ⟨_, orphaned⟩ := loseRace_closes moment db withdrawing payout
      intro later next subject told
      simp only [liftPay, lift, orphaned, Option.map_some, Option.some.injEq] at next
      subst next
      cases told

theorem orReject_next {T A B : Type} {db : Db} {x : Except Rejection B} {task : B → T} {waits : T}
    (next : (Turn.orReject db x fun b => (.wait db (task b) : Turn T A)).next = some waits) :
    ∃ b, x = .ok b ∧ task b = waits := by
  cases x with
  | error rejection => cases next
  | ok b => exact ⟨b, rfl, Option.some.inj next⟩

theorem readToken_issued {moment : Moment} {issued : List ProofVerifier.ProofToken}
    {shown : Option ProofVerifier.ProofToken} {token : ProofVerifier.ProofToken}
    (read : readToken moment issued shown = .ok token) : token ∈ issued := by
  unfold readToken at read
  split at read
  · cases read
  · split_ifs at read with known
    cases read
    exact known

/-- A proof-based withdrawal waits for the nullifier of an issued token on an active vault. -/
theorem executeWithdraw_waits {moment : Moment} {issued : List ProofVerifier.ProofToken} {db : Db}
    {body : ExecuteBody} {task : ExecuteTask}
    (waits : (executeWithdraw moment issued db body).next = some task) :
    ∃ txHash withdrawal, task = .waiting txHash 1 withdrawal ∧
      ∃ vault ∈ db.vaults.rows, vault.id = withdrawal.vaultId ∧ vault.status = .active ∧
        ∃ token ∈ issued, token.vaultId = withdrawal.vaultId ∧
          token.nullifierHash = withdrawal.nullifierHash := by
  unfold executeWithdraw at waits
  obtain ⟨withdrawal, asked, rfl⟩ := orReject_next waits
  simp only [bind_eq_ok, refuse_ok] at asked
  obtain ⟨_, _, _, _, token, read, _, named, asked⟩ := asked
  cases found : vaultById db (body.vaultId.getD []) with
  | none =>
      rw [found] at asked
      cases asked
  | some vault =>
      simp only [found, bind_eq_ok, refuse_ok, pure_eq_ok, Except.ok.injEq] at asked
      obtain ⟨_, active, rfl⟩ := asked
      obtain ⟨member, chosen⟩ := Table.find?_some found
      refine ⟨_, _, rfl, vault, member, by simpa using chosen, by simpa using active, ?_⟩
      exact ⟨token, readToken_issued read, by simpa using named, rfl⟩

/-- A withdrawal begins on an active vault, with its nullifier or that of a proof token. -/
theorem begin_about {moment : Moment} {issued : List ProofVerifier.ProofToken} {db : Db}
    {request : Request} {later : Task} {vaultId : Text} {nullifierHash : Option Text}
    (next : (begin env moment issued db request).next = some later)
    (told : about later = some (vaultId, nullifierHash)) :
    ∃ vault ∈ db.vaults.rows, vault.id = vaultId ∧ vault.status = .active ∧
      (vault.nullifierHash = nullifierHash ∨
        ∃ token ∈ issued, token.vaultId = vaultId ∧ token.nullifierHash = nullifierHash) := by
  have quiet : ∀ {T A : Type} (wrap : T → Task) (answer : A → Answer) (turn : Turn T A),
      (∀ t, about (wrap t) = none) → (lift wrap answer turn).next = some later → False := by
    intro T A wrap answer turn unasked next
    obtain ⟨t, _, rfl⟩ := Option.map_eq_some_iff.mp next
    rw [unasked t] at told
    cases told
  cases request with
  | withdraw body =>
      simp only [begin, Withdrawals.withdraw] at next
      split at next
      · cases next
      · next request vault call gate =>
        cases next
        cases told
        obtain ⟨-, admitted⟩ := (WithdrawGate.withdrawGate_submit _ _ _ _ _ _).mp ⟨call, gate⟩
        obtain ⟨member, chosen⟩ := Table.find?_some admitted.found
        exact ⟨vault, member, rfl, admitted.active, Or.inl (by simpa using chosen)⟩
      · next request vault txHash gate =>
        have retries : Stays (.audit (.auditing [] [] {})) (liftPay .withdraw .withdraw
            (authorize env.toConfig moment db ⟨request, vault.id, txHash, true⟩)) :=
          authorized_stays (authorize_authorized ..) fun _ _ other => by cases other
        have other := retries later next _ told
        cases other
  | executeWithdraw body =>
      obtain ⟨task, waits, rfl⟩ := Option.map_eq_some_iff.mp next
      obtain ⟨txHash, withdrawal, rfl, vault, member, same, active, issue⟩ :=
        executeWithdraw_waits waits
      cases told
      exact ⟨vault, member, same, active, Or.inr issue⟩
  | verifyWithdraw proof =>
      obtain ⟨task, waits, rfl⟩ := Option.map_eq_some_iff.mp next
      unfold Withdrawals.verifyWithdraw at waits
      split_ifs at waits
      · cases waits
      · split at waits <;> cases waits
        cases told
  | prepareDeposit body => exact (quiet _ _ _ (fun _ => rfl) next).elim
  | confirmDeposit body => exact (quiet _ _ _ (fun _ => rfl) next).elim
  | relayDeposit body => exact (quiet _ _ _ (fun _ => rfl) next).elim
  | spvDeposit body => exact (quiet _ _ _ (fun _ => rfl) next).elim
  | auditVerify => exact (quiet _ _ _ (fun _ => rfl) next).elim
  | autoSync => exact (quiet _ _ _ (fun _ => rfl) next).elim
  | processAuthorizations => exact (quiet _ (fun _ => .processed) _ (fun _ => rfl) next).elim

theorem authorized_next {db : Db} {withdrawing : Withdrawing} {later : WithdrawTask}
    {turn : WithdrawTurn} {answer : WithdrawAnswer → Answer}
    (authorized : Authorized withdrawing db turn)
    (next : (liftPay .withdraw answer turn).next = some (.withdraw later)) :
    ∃ payout, later = .racing withdrawing payout := by
  cases authorized with
  | given_up _ ends => simp [liftPay, lift, ends] at next
  | attempted _ attempt =>
      cases attempt with
      | racing _ _ =>
          cases next
          exact ⟨_, rfl⟩
      | ended _ _ ends => simp [liftPay, lift, ends] at next

/-- How a withdrawal goes on: it races from its transaction hash on, or as an orphan. -/
inductive Follows (task : Task) (reply : Reply) : WithdrawTask → Prop where
  | racing (withdrawing : Withdrawing) (payout later : Payout)
      (was : task = .withdraw (.racing withdrawing payout)) :
      Follows task reply (.racing withdrawing later)
  | submitted (request : WithdrawRequest) (vault : VaultRow) (call : WithdrawCall) (txHash : Text)
      (payout : Payout) (was : task = .withdraw (.executing request vault call))
      (answer : reply = .rpc (.executed (.ok txHash))) :
      Follows task reply (.racing ⟨request, vault.id, txHash, false⟩ payout)
  | orphaned (payout later : Payout) (was : task = .withdraw (.orphaned payout)) :
      Follows task reply (.orphaned later)

theorem resume_withdraw {moment : Moment} {nextRequest : Nat} {db : Db} {task : Task}
    {reply : Reply} {turn : SystemTurn} {later : WithdrawTask}
    (resumed : resume env moment nextRequest db task reply = some turn)
    (next : turn.next = some (.withdraw later)) : Follows task reply later := by
  cases resume_resumed env resumed with
  | deposit _ | execute _ | audit _ =>
      obtain ⟨_, _, told⟩ := lift_next.mp next
      cases told
  | @executing request vault call answer =>
      cases answer with
      | error failure => cases next
      | ok txHash =>
          obtain ⟨payout, rfl⟩ := authorized_next (authorize_authorized ..) next
          exact .submitted request vault call txHash payout rfl rfl
  | @racing held waiting answer after went =>
      cases resumeRacing_resumed _ _ went with
      | send _ _ =>
          cases next
          exact .racing held waiting _ rfl
      | failed _ _ _ ends => simp [liftPay, lift, ends] at next
      | paid _ _ _ _ ends => simp [liftPay, lift, ends] at next
  | @orphaned waiting answer after went =>
      cases resumeOrphaned_resumed _ _ went with
      | send _ _ =>
          cases next
          exact .orphaned waiting _ rfl
      | failed _ _ _ => cases next
      | lost _ => cases next
      | paid _ _ _ _ => cases next
  | verifying | paying _ =>
      obtain ⟨_, _, told⟩ := liftPay_next.mp next
      cases told

/-- A withdrawal begins with its Starknet call, or as a retry without one. -/
inductive Begun (env : Environment) (db : Db) : WithdrawTask → Prop where
  | submit {body : WithdrawGate.WithdrawBody} {request : WithdrawRequest} {vault : VaultRow}
      {call : WithdrawCall}
      (gate : WithdrawGate.withdrawGate env.senderAddress env.crypto db body =
        .ok (.submit request vault call)) : Begun env db (.executing request vault call)
  | retry {withdrawing : Withdrawing} {payout : Payout} (again : withdrawing.isRetry = true) :
      Begun env db (.racing withdrawing payout)

theorem begin_withdraw {moment : Moment} {issued : List ProofVerifier.ProofToken} {db : Db}
    {request : Request} {later : WithdrawTask}
    (next : (begin env moment issued db request).next = some (.withdraw later)) :
    Begun env db later := by
  cases request with
  | withdraw body =>
      simp only [begin, Withdrawals.withdraw] at next
      split at next
      · cases next
      · next gate =>
        cases next
        exact .submit gate
      · obtain ⟨payout, rfl⟩ := authorized_next (authorize_authorized ..) next
        exact .retry rfl
  | _ =>
      obtain ⟨_, _, told⟩ := Option.map_eq_some_iff.mp next
      cases told

theorem begin_racing {moment : Moment} {issued : List ProofVerifier.ProofToken} {db : Db}
    {request : Request} {withdrawing : Withdrawing} {payout : Payout}
    (next : (begin env moment issued db request).next =
      some (.withdraw (.racing withdrawing payout))) : withdrawing.isRetry = true := by
  cases begin_withdraw env next with
  | retry again => exact again

/-- What a deposit handler waits for first. -/
inductive FirstWait (env : Environment) (moment : Moment) : DepositTask → Prop where
  | balance {preparing : Preparing} : FirstWait env moment (.balance preparing)
  | confirm {txHash : Text} {confirming : Confirming} :
      FirstWait env moment (.waiting txHash 1 (.confirm confirming))
  | relay {body : RelayDepositBody} {relaying : Relaying}
      (started : startRelay env.toConfig moment body = .ok relaying) :
      FirstWait env moment (.executing (.relay relaying))
  | header {body : SpvDepositBody} : FirstWait env moment (.header body 1)

theorem begin_deposit {moment : Moment} {issued : List ProofVerifier.ProofToken} {db : Db}
    {request : Request} {later : DepositTask}
    (next : (begin env moment issued db request).next = some (.deposit later)) :
    FirstWait env moment later := by
  cases request with
  | prepareDeposit body =>
      obtain ⟨t, waits, same⟩ := lift_next.mp next
      cases same
      obtain ⟨preparing, -, rfl⟩ := orReject_next waits
      exact .balance
  | confirmDeposit body =>
      obtain ⟨t, waits, same⟩ := lift_next.mp next
      cases same
      obtain ⟨confirming, -, rfl⟩ := orReject_next waits
      exact .confirm
  | relayDeposit body =>
      obtain ⟨t, waits, same⟩ := lift_next.mp next
      cases same
      obtain ⟨relaying, started, rfl⟩ := orReject_next waits
      exact .relay started
  | spvDeposit body =>
      obtain ⟨t, waits, same⟩ := lift_next.mp next
      cases same
      unfold spvDeposit at waits
      split_ifs at waits <;> cases waits
      exact .header
  | _ =>
      obtain ⟨_, _, told⟩ := Option.map_eq_some_iff.mp next
      cases told

/-- The timer leaves a withdrawal as an orphan. -/
theorem expire_withdraw {moment : Moment} {db : Db} {task : Task} {turn : SystemTurn}
    {later : WithdrawTask} (expired : expire moment db task = some turn)
    (next : turn.next = some (.withdraw later)) :
    ∃ withdrawing payout, task = .withdraw (.racing withdrawing payout) ∧
      later = .orphaned payout := by
  cases expire_expired expired with
  | @racing held waiting =>
      obtain ⟨_, orphaned⟩ := loseRace_closes moment db held waiting
      simp only [liftPay, lift, orphaned, Option.map_some, Option.some.injEq,
        Task.withdraw.injEq] at next
      exact ⟨held, waiting, rfl, next.symm⟩

end PrivateBtc.Backend.VaultWrites
