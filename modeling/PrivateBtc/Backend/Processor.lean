/- PrivateBtc/Backend/Processor
   digest: The withdrawal processor and the two jobs that refresh vault states from receipts. -/

import PrivateBtc.Backend.Withdrawals

set_option autoImplicit false
set_option relaxedAutoImplicit false

namespace PrivateBtc.Backend.Processor

open Library Library.JsText
open Authorizations Database Http Payments Starknet
open Withdrawals (PayTurn)

/-- The rest of the list is as it was read at the start of the poll. -/
inductive ProcessorTask where
  | verifying (auth : WithdrawalAuthorization) (rest : List WithdrawalAuthorization)
  | paying (payout : Payout) (rest : List WithdrawalAuthorization)

abbrev ProcessorTurn := PayTurn ProcessorTask Unit

variable (cfg : Config) (moment : Moment)

/-- The loop up to its next wait; a malformed hash is answered without a call. -/
def takeNext (db : Db) : List WithdrawalAuthorization → ProcessorTurn
  | [] => { toTurn := .reply db () }
  | auth :: rest =>
      let db := markStatus auth.id .processing moment.nowSecs db
      if validateTxHashFormat (paddedHash auth.starknetTxHash) then
        { toTurn := .wait db (.verifying auth rest) }
      else takeNext (markStatus auth.id .pending moment.nowSecs db) rest

def processAuthorizations (db : Db) : ProcessorTurn :=
  takeNext moment db (getPendingAuthorizations db)

/-- Back to pending for the next poll; then the loop goes on. -/
def giveBack (db : Db) (authId : Text) (rest : List WithdrawalAuthorization) : ProcessorTurn :=
  takeNext moment (markStatus authId .pending moment.nowSecs db) rest

def sendPayout (db : Db) (auth : WithdrawalAuthorization) (rest : List WithdrawalAuthorization) :
    ProcessorTurn :=
  let started := startPayout cfg auth.id moment.nowSecs db
  match started.progress with
  | .waiting payout => { toTurn := .wait started.db (.paying payout rest) }
  | .settled _ => giveBack moment started.db auth.id rest

def isFinalized : Except String TransactionReceipt → Bool
  | .ok receipt => receipt.succeeded
  | .error _ => false

def afterVerification (db : Db) (auth : WithdrawalAuthorization)
    (rest : List WithdrawalAuthorization) (reply : Except String TransactionReceipt) :
    ProcessorTurn :=
  if isFinalized reply then sendPayout cfg moment db auth rest
  else giveBack moment db auth.id rest

def resumePaying (nextRequest : Nat) (db : Db) (payout : Payout)
    (rest : List WithdrawalAuthorization) (reply : MempoolReply) : Option ProcessorTurn := do
  let resumed ← resumePayout cfg moment.nowSecs nextRequest db payout reply
  match resumed.progress with
  | .waiting payout =>
      pure { toTurn := .wait resumed.db (.paying payout rest)
             sends := resumed.sends.map fun payment => (payout.auth.id, payment) }
  | .settled (.error _) => pure (giveBack moment resumed.db payout.auth.id rest)
  | .settled (.ok txid) =>
      match markCompleted payout.auth.id moment.nowSecs txid resumed.db with
      | .ok db => pure (takeNext moment db rest)
      | .error _ => pure (giveBack moment resumed.db payout.auth.id rest)

/-- The counters of the audit. -/
structure Audit where
  verified : Nat := 0
  pending : Nat := 0
  failed : Nat := 0
  simulated : Nat := 0

inductive AuditTask where
  | auditing (txHash : Text) (rest : List Text) (audit : Audit)
  | syncing (vault : VaultRow) (rest : List VaultRow)

abbrev AuditTurn := Turn AuditTask Audit

def auditNext (db : Db) (audit : Audit) : List Text → AuditTurn
  | [] => .reply db audit
  | txHash :: rest =>
      if ['S', 'I', 'M', 'U', 'L', 'A', 'T', 'E', 'D'].isPrefixOf txHash then
        auditNext db { audit with simulated := audit.simulated + 1 } rest
      else .wait db (.auditing txHash rest audit)

def auditVerify (db : Db) : AuditTurn :=
  auditNext db {} (db.vaults.rows.filterMap fun vault => vault.depositTxHash)

/-- UPDATE vaults SET status = ? WHERE .. -/
def setVaultStatus (selected : VaultRow → Bool) (status : VaultStatus) (db : Db) : Db :=
  { db with
    vaults := db.vaults.modify selected (fun vault => { vault with status })
      ⟨fun _ => rfl, fun _ _ => rfl⟩ }

def afterAudit (db : Db) (txHash : Text) (rest : List Text) (audit : Audit) :
    Option RawReceipt → AuditTurn
  | none => auditNext db { audit with pending := audit.pending + 1 } rest
  | some receipt =>
      let status := receipt.executionStatus.or receipt.finalityStatus
      let set := setVaultStatus fun vault => vault.depositTxHash == some txHash
      if status = some .acceptedOnL2 ∨ status = some .succeeded then
        auditNext (set .active db) { audit with verified := audit.verified + 1 } rest
      else if status = some .rejected ∨ status = some .reverted then
        auditNext (set .pending db) { audit with failed := audit.failed + 1 } rest
      else auditNext (set .pending db) { audit with pending := audit.pending + 1 } rest

def syncNext (db : Db) : List VaultRow → AuditTurn
  | [] => { db }
  | vault :: rest => .wait db (.syncing vault rest)

/-- The job that runs once, three seconds after the start. -/
def autoSync (db : Db) : AuditTurn :=
  syncNext db (db.vaults.filter fun vault =>
    vault.status == .pending && vault.depositTxHash.isSome)

def afterSync (db : Db) (vault : VaultRow) (rest : List VaultRow) : Option RawReceipt → AuditTurn
  | some receipt =>
      if receipt.executionStatus = some .succeeded ∨ receipt.finalityStatus = some .acceptedOnL2
      then syncNext (setVaultStatus (fun v => v.id == vault.id) .active db) rest
      else syncNext db rest
  | none => syncNext db rest

def resumeAudit (db : Db) : AuditTask → RpcReply → Option AuditTurn
  | .auditing txHash rest audit, .rawReceipt reply => some (afterAudit db txHash rest audit reply)
  | .syncing vault rest, .rawReceipt reply => some (afterSync db vault rest reply)
  | _, _ => none

def wellFormed (auth : WithdrawalAuthorization) : Bool :=
  validateTxHashFormat (paddedHash auth.starknetTxHash)

/-- The authorization that the loop takes up next. -/
def nextUp (rest : List WithdrawalAuthorization) : Option WithdrawalAuthorization :=
  rest.find? wellFormed

/-- The ids that the loop marks: those it passes by and the one it takes up. -/
def reached : List WithdrawalAuthorization → Set Text
  | [] => ∅
  | auth :: rest => if wellFormed auth then {auth.id} else insert auth.id (reached rest)

/-- The loop marks what it reaches and waits for the receipt of what it takes up. -/
structure Continues (ids : Set Text) (db : Db) (rest : List WithdrawalAuthorization)
    (turn : ProcessorTurn) : Prop where
  marks : Marks (ids ∪ reached rest) db turn.db
  silent : turn.sends = none
  next : ∀ task, turn.next = some task → ∃ auth left, task = .verifying auth left ∧
    nextUp rest = some auth ∧ ∀ row ∈ auth :: left, row ∈ rest

theorem takeNext_continues (db : Db) (rest : List WithdrawalAuthorization) :
    Continues ∅ db rest (takeNext moment db rest) := by
  induction rest generalizing db with
  | nil => exact ⟨Marks.refl _ _, rfl, by simp [takeNext, Turn.reply]⟩
  | cons auth rest ih =>
      have processing : Marks (∅ ∪ reached (auth :: rest)) db
          (markStatus auth.id .processing moment.nowSecs db) := by
        refine Marks.of_writeStatus ?_ (by decide) _ _ _ _
        simp only [reached, Set.empty_union]
        split_ifs <;> simp
      rw [takeNext, show validateTxHashFormat (paddedHash auth.starknetTxHash) = wellFormed auth
        from rfl]
      cases formed : wellFormed auth with
      | true =>
          rw [if_pos rfl]
          refine ⟨processing, rfl, ?_⟩
          rintro task next
          cases next
          exact ⟨auth, rest, rfl, by simp [nextUp, formed], by simp⟩
      | false =>
          rw [if_neg Bool.false_ne_true]
          have pending : Marks (∅ ∪ reached (auth :: rest))
              (markStatus auth.id .processing moment.nowSecs db)
              (markStatus auth.id .pending moment.nowSecs
                (markStatus auth.id .processing moment.nowSecs db)) := by
            refine Marks.of_writeStatus ?_ (by decide) _ _ _ _
            simp [reached, formed]
          have later := ih (markStatus auth.id .pending moment.nowSecs
            (markStatus auth.id .processing moment.nowSecs db))
          refine ⟨(processing.trans pending).trans (later.marks.mono ?_), later.silent, ?_⟩
          · simp [reached, formed]
          · intro task next
            obtain ⟨taken, left, waits, up, within⟩ := later.next task next
            refine ⟨taken, left, waits, ?_, fun row member => .tail _ (within row member)⟩
            simpa [nextUp, formed] using up

theorem Continues.after {ids : Set Text} {db db₁ : Db} {rest : List WithdrawalAuthorization}
    {turn : ProcessorTurn} (marks : Marks ids db db₁) (rests : Continues ∅ db₁ rest turn) :
    Continues ids db rest turn := by
  refine ⟨(marks.mono Set.subset_union_left).trans (rests.marks.mono ?_), rests.silent, rests.next⟩
  exact Set.union_subset_union_left _ (Set.empty_subset ids)

theorem giveBack_continues {authId : Text} {db db₁ : Db} (marks : Marks {authId} db db₁)
    (rest : List WithdrawalAuthorization) :
    Continues {authId} db rest (giveBack moment db₁ authId rest) :=
  .after (marks.trans (Marks.of_writeStatus (Set.mem_singleton authId) (by decide) _ _ _ _))
    (takeNext_continues moment _ rest)

/-- A receipt was fine or is waited for no longer: the payout starts, or is given back. -/
inductive PayoutSent (auth : WithdrawalAuthorization) (rest : List WithdrawalAuthorization)
    (db : Db) : ProcessorTurn → Prop where
  | paying {db' : Db} {row : WithdrawalAuthorization} (marks : Marks {auth.id} db db')
      (found : getAuthorizationById db auth.id = some row) :
      PayoutSent auth rest db { toTurn := .wait db' (.paying (.fetching row) rest) }
  | given_back {turn : ProcessorTurn}
      (ended : (startPayout cfg auth.id moment.nowSecs db).settles = true)
      (continues_ : Continues {auth.id} db rest turn) : PayoutSent auth rest db turn

theorem sendPayout_sent (db : Db) (auth : WithdrawalAuthorization)
    (rest : List WithdrawalAuthorization) :
    PayoutSent cfg moment auth rest db (sendPayout cfg moment db auth rest) := by
  have started := startPayout_started cfg auth.id moment.nowSecs db
  unfold sendPayout
  generalize turn_eq : startPayout cfg auth.id moment.nowSecs db = turn at started
  cases started with
  | fetching marks found => exact .paying marks found
  | failed marks =>
      exact .given_back (by rw [turn_eq]; rfl) (giveBack_continues moment marks rest)

/-- What the loop does once it is told about its payout. -/
inductive PayingResumed (nextRequest : Nat) (db : Db) (payout : Payout)
    (rest : List WithdrawalAuthorization) (reply : MempoolReply) : ProcessorTurn → Prop where
  | send {payment : Payment} (unsent : payout.request = none)
      (silent : ∀ answer, reply ≠ .broadcast answer) :
      PayingResumed nextRequest db payout rest reply
        { toTurn := .wait db (.paying (.sent payout.auth nextRequest) rest)
          sends := some (payout.auth.id, payment) }
  | failed {turn : ProcessorTurn} (unpaid : Paid payout reply = none)
      (ended : (resumePayout cfg moment.nowSecs nextRequest db payout reply).any PayoutTurn.settles)
      (continues_ : Continues {payout.auth.id} db rest turn) :
      PayingResumed nextRequest db payout rest reply turn
  | paid {db₁ : Db} {turn : ProcessorTurn} {txid : Text} (sent : payout.request ≠ none)
      (answer : reply = .broadcast (.ok txid))
      (ended : (resumePayout cfg moment.nowSecs nextRequest db payout reply).any PayoutTurn.settles)
      (completes : Completes payout.auth.id db db₁) (continues_ : Continues ∅ db₁ rest turn) :
      PayingResumed nextRequest db payout rest reply turn

theorem resumePaying_resumed {nextRequest : Nat} {db : Db} {payout : Payout}
    {rest : List WithdrawalAuthorization} {reply : MempoolReply} {turn : ProcessorTurn}
    (resumed : resumePaying cfg moment nextRequest db payout rest reply = some turn) :
    PayingResumed cfg moment nextRequest db payout rest reply turn := by
  simp only [resumePaying, Option.bind_eq_bind, Option.bind_eq_some_iff] at resumed
  obtain ⟨after, went, told⟩ := resumed
  cases resumePayout_resumed cfg went with
  | send unsent silent =>
      cases told
      exact .send unsent silent
  | failed marks _ unpaid =>
      cases told
      exact .failed unpaid (by rw [went]; rfl) (giveBack_continues moment marks rest)
  | @paid txid sent answer legible =>
      cases empty : txid.isEmpty with
      | true =>
          obtain ⟨unpaid, covenants⟩ := blank_unpaid cfg answer empty legible
          simp only [markCompleted, empty, if_true, covenants] at told
          cases told
          exact .failed unpaid (by rw [went]; rfl)
            (giveBack_continues moment (Marks.refl _ _) rest)
      | false =>
          simp only [markCompleted, empty] at told
          cases told
          refine .paid sent answer (by rw [went]; rfl) ?_ (takeNext_continues moment _ rest)
          split_ifs
          · exact Completes.of_writeStatus ..
          · exact (Completes.of_writeStatus ..).trans (Completes.of_writeStatus ..)

theorem auditNext_db (db : Db) (audit : Audit) (rest : List Text) :
    (auditNext db audit rest).db = db := by
  induction rest generalizing audit with
  | nil => rfl
  | cons txHash rest ih =>
      rw [auditNext]
      split_ifs
      · exact ih _
      · rfl

theorem syncNext_db (db : Db) (rest : List VaultRow) : (syncNext db rest).db = db := by
  cases rest <;> rfl

/-- The vaults that a refresh may bring to life: those that the sync has listed. -/
def listed : AuditTask → List VaultRow
  | .auditing _ _ _ => []
  | .syncing vault rest => vault :: rest

theorem auditNext_listed (db : Db) (audit : Audit) (rest : List Text) (task : AuditTask)
    (next : (auditNext db audit rest).next = some task) : listed task = [] := by
  induction rest generalizing audit with
  | nil => cases next
  | cons txHash rest ih =>
      rw [auditNext] at next
      split_ifs at next
      · exact ih _ next
      · cases next
        rfl

theorem syncNext_listed (db : Db) (rest : List VaultRow) (task : AuditTask)
    (next : (syncNext db rest).next = some task) : listed task = rest := by
  cases rest with
  | nil => cases next
  | cons vault rest =>
      cases next
      rfl

/-- The rows whose status the refresh writes. -/
def refreshed : AuditTask → VaultRow → Bool
  | .auditing txHash _ _ => fun row => row.depositTxHash == some txHash
  | .syncing vault _ => fun row => row.id == vault.id

/-- The status that a receipt makes the refresh write: the audit takes a vault back as well. -/
def finds : AuditTask → RpcReply → Option VaultStatus
  | .auditing _ _ _, .rawReceipt (some receipt) =>
      let status := receipt.executionStatus.or receipt.finalityStatus
      if status = some .acceptedOnL2 ∨ status = some .succeeded then some .active
      else some .pending
  | .syncing _ _, .rawReceipt (some receipt) =>
      if receipt.executionStatus = some .succeeded ∨ receipt.finalityStatus = some .acceptedOnL2
      then some .active
      else none
  | _, _ => none

theorem finds_open (task : AuditTask) (reply : RpcReply) : finds task reply ≠ some .withdrawn := by
  unfold finds
  split
  · dsimp only
    split_ifs <;> simp
  · split_ifs <;> simp
  · simp

/-- A refresh writes a status to vaults with a deposit transaction, or to the first one listed. -/
structure Refreshes (db : Db) (task : AuditTask) (reply : RpcReply) (turn : AuditTurn) : Prop where
  writes : turn.db =
    (finds task reply).elim db fun status => setVaultStatus (refreshed task) status db
  next : ∀ later, turn.next = some later → ∀ vault ∈ listed later, vault ∈ listed task

theorem Refreshes.apart {db : Db} {task : AuditTask} {reply : RpcReply} {turn : AuditTurn}
    (refreshes : Refreshes db task reply turn) : Apart db turn.db := by
  rw [refreshes.writes]
  cases finds task reply with
  | none => exact Apart.refl db
  | some status => exact ⟨rfl, rfl⟩

theorem afterAudit_refreshes (db : Db) (txHash : Text) (rest : List Text) (audit : Audit)
    (reply : Option RawReceipt) :
    Refreshes db (.auditing txHash rest audit) (.rawReceipt reply)
      (afterAudit db txHash rest audit reply) := by
  constructor
  · unfold afterAudit
    cases reply with
    | none => exact auditNext_db ..
    | some receipt =>
        dsimp only [finds]
        split_ifs <;> exact auditNext_db ..
  · have unlisted : ∀ db' audit' later, (auditNext db' audit' rest).next = some later →
        ∀ vault ∈ listed later, vault ∈ listed (.auditing txHash rest audit) := by
      intro db' audit' later next vault member
      rw [auditNext_listed db' audit' rest later next] at member
      exact member
    unfold afterAudit
    cases reply with
    | none => exact unlisted _ _
    | some receipt =>
        dsimp only
        split_ifs <;> exact unlisted _ _

theorem afterSync_refreshes (db : Db) (vault : VaultRow) (rest : List VaultRow)
    (reply : Option RawReceipt) :
    Refreshes db (.syncing vault rest) (.rawReceipt reply) (afterSync db vault rest reply) := by
  constructor
  · unfold afterSync
    cases reply with
    | none => exact syncNext_db ..
    | some receipt =>
        dsimp only [finds]
        split_ifs <;> exact syncNext_db ..
  · have shorter : ∀ db' later, (syncNext db' rest).next = some later →
        ∀ row ∈ listed later, row ∈ listed (.syncing vault rest) := by
      intro db' later next row member
      rw [syncNext_listed db' rest later next] at member
      exact .tail _ member
    unfold afterSync
    cases reply with
    | none => exact shorter _
    | some receipt =>
        dsimp only
        split_ifs <;> exact shorter _

theorem resumeAudit_refreshes {db : Db} {task : AuditTask} {reply : RpcReply} {turn : AuditTurn}
    (resumed : resumeAudit db task reply = some turn) : Refreshes db task reply turn := by
  unfold resumeAudit at resumed
  split at resumed
  · cases resumed
    exact afterAudit_refreshes ..
  · cases resumed
    exact afterSync_refreshes ..
  · cases resumed

end PrivateBtc.Backend.Processor
